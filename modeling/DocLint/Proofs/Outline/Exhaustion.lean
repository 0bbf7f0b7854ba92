import DocLint.Proofs.Outline.Nesting
import DocLint.Proofs.Outline.Termination
import DocLint.Resources.Builtin

/-!
No token is left when a module has been read. A reader of definitions stops early only behind a
dedentation that it has not seen the indentation of; tokens that stand in blocks hide no indentation
from it, because whatever it passes over in one go is part of a single line.
-/

set_option autoImplicit false

namespace DocLint.Outline

variable {ts : List Token} {n m k i : Nat} {t u : Token}

/-! ### Sums of changes -/

theorem net_invariant {change : Token → Int} {P : Int → Prop} (hnk : n ≤ k) (hkm : k ≤ m)
    (hk : P (net change ts n k)) (hstep : Through ts k m fun t => ∀ x, P x → P (x + change t)) :
    P (net change ts n m) := by
  induction m with
  | zero =>
    obtain rfl : k = 0 := by omega
    exact hk
  | succ m ih =>
    rcases Nat.eq_or_lt_of_le hkm with rfl | hlt
    · exact hk
    · have hm := ih (by omega) (hstep.part (Nat.le_refl k) (Nat.le_succ m))
      cases ht : ts[m]? with
      | none => simpa [net,List.take_add_one,ht] using hm
      | some t =>
        rw [net_succ change (by omega) ht]
        exact hstep m t (by omega) (Nat.lt_succ_self m) ht _ hm

def turn (t : Token) : Int := if t.kind = .indent then 1 else if t.kind = .dedent then -1 else 0

theorem net_turn_le (hnm : n ≤ m) (h : Through ts n m (·.kind ≠ .indent)) :
    net turn ts 0 m ≤ net turn ts 0 n := by
  refine net_invariant (P := fun x => x ≤ net turn ts 0 n) (Nat.zero_le n) hnm (Int.le_refl _) ?_
  refine h.mono fun t ht x hx => ?_
  have hturn : turn t ≤ 0 := by
    rw [turn,if_neg ht]
    split <;> omega
  omega

/-! ### Brackets -/

def Bracket.all : List Bracket := [.round,.square,.curly]

def Inside (ts : List Token) (j : Nat) : Prop :=
  ∃ b ∈ Bracket.all, ∃ i < j, (∃ t ∈ ts[i]?, t.is .op b.opening = true) ∧
    ∀ k < j + 1, i < k → 0 < net b.change ts i k

instance {j : Nat} : Decidable (Inside ts j) := by
  unfold Inside
  infer_instance

theorem Inside.advance (h : Inside ts n) (hnm : n ≤ m)
    (hthrough : Through ts n m fun t => ∀ b : Bracket, b.change t = 0) : Inside ts m := by
  obtain ⟨b,hb,i,hi,hopen,hlevel⟩ := h
  refine ⟨b,hb,i,by omega,hopen,fun k hk hik => ?_⟩
  by_cases hkn : k < n + 1
  · exact hlevel k hkn hik
  · refine net_invariant (P := fun x => 0 < x) (k := n) (by omega) (by omega)
      (hlevel n (Nat.lt_succ_self n) hi) ?_
    refine (hthrough.part (Nat.le_refl n) (by omega)).mono fun t ht x hx => ?_
    rw [ht b]
    omega

theorem Inside.of_opening {b : Bracket} (ht : ts[i]? = some t) (hb : t.is .op b.opening = true) :
    Inside ts (i + 1) := by
  have hall : b ∈ Bracket.all := by cases b <;> decide
  refine ⟨b,hall,i,Nat.lt_succ_self i,⟨t,ht,hb⟩,fun k hk hik => ?_⟩
  obtain rfl : k = i + 1 := by omega
  rw [net_succ b.change (Nat.le_refl i) ht,net_self,Bracket.change,if_pos hb]
  decide

theorem Bracket.change_of_kind (h : t.kind ≠ .op) (b : Bracket) : b.change t = 0 := by
  simp [change,Token.is,h]

theorem Bracket.change_comma (h : t.value = ",".toList) (b : Bracket) : b.change t = 0 := by
  cases b <;> simp [change,Token.is,h,opening,closing]

/-! ### Blocks -/

def Decorates (ts : List Token) (i : Nat) : Prop :=
  ∃ e < ts.length, i < e ∧ (∃ t ∈ ts[e]?, t.kind = .newline) ∧ Through ts i e (·.kind ≠ .newline) ∧
    ∃ f < ts.length, e < f ∧ Through ts (e + 1) f (·.kind.isLogicallyBlank = true) ∧
      ∃ t ∈ ts[f]?, opensDecorated t = true ∨ t.is .op "@" = true

instance : Decidable (Decorates ts i) := by
  unfold Decorates
  infer_instance

def isKeyword (t : Token) : Bool := t.is .name "def" || t.is .name "class"

/-- What scanning a text makes sure of: inside a statement, a line end of no importance stands between
brackets, and only names and operators are spelled like the ones that matter here. -/
structure Scanned (ts : List Token) : Prop where
  joined : Each ts fun i t => isSolid t = true → ∀ u ∈ ts[i + 1]?, u.kind = .nl →
    Inside ts (i + 1)
  spelled : ∀ t ∈ ts, isWellSpelled t = true

instance : Decidable (Scanned ts) :=
  decidable_of_iff (_ ∧ ∀ t ∈ ts, isWellSpelled t = true)
    ⟨fun ⟨joined,spelled⟩ => ⟨joined,spelled⟩,fun ⟨joined,spelled⟩ => ⟨joined,spelled⟩⟩

structure InBlocks (ts : List Token) : Prop where
  balanced : ∀ n < ts.length + 1, 0 ≤ net turn ts 0 n
  indented : Each ts fun j t => t.kind = .indent →
    ∃ i < j, (∃ u ∈ ts[i]?, u.kind = .newline) ∧ Through ts (i + 1) j (·.kind.isLogicallyBlank = true)
  enclosed : Each ts fun j t => t.kind.endsStatement = true → ¬Inside ts j
  decorated : Each ts fun i t => t.is .op "@" = true → freshAt ts i = true → Decorates ts i
  named : Each ts fun i t => isKeyword t = true → ∃ u ∈ ts[i + 1]?, u.kind = .name
  operand : Each ts fun i t => t.is .name "from" = true →
    ∃ u ∈ ts[i + 1]?, u.kind.endsStatement = false

instance : Decidable (InBlocks ts) :=
  decidable_of_iff ((∀ n < ts.length + 1, 0 ≤ net turn ts 0 n) ∧ _ ∧ _ ∧ _ ∧ _ ∧ _)
    ⟨fun ⟨h₁,h₂,h₃,h₄,h₅,h₆⟩ => ⟨h₁,h₂,h₃,h₄,h₅,h₆⟩,fun ⟨h₁,h₂,h₃,h₄,h₅,h₆⟩ => ⟨h₁,h₂,h₃,h₄,h₅,h₆⟩⟩

def HeadersEnd (ts : List Token) : Prop :=
  Each ts fun i t => isKeyword t = true → ∃ c < ts.length, i + 2 ≤ c ∧
    (∃ u ∈ ts[c]?, u.is .op ":" = true) ∧ net Bracket.round.change ts (i + 2) c = 0 ∧
    Through ts (i + 2) c (·.kind ≠ .newline)

instance : Decidable (HeadersEnd ts) := by
  unfold HeadersEnd
  infer_instance

theorem InBlocks.no_indent (h : InBlocks ts) (ht : ts[n]? = some t) (hsolid : isSolid t = true)
    (hline : Through ts n m (·.kind ≠ .newline)) : Through ts n m (·.kind ≠ .indent) := by
  intro p u hnp hpm hu hindent
  obtain ⟨i,hi,⟨v,hv,hnewline⟩,hblank⟩ := h.indented p u hu hindent
  have hni : n ≤ i := by
    refine Nat.le_of_not_lt fun hin => ?_
    rcases Nat.eq_or_lt_of_le hnp with rfl | hlt
    · cases ht.symm.trans hu
      simp [isSolid,hindent,TokenKind.endsStatement] at hsolid
    · have hb : t.kind.isLogicallyBlank = true := hblank n t (by omega) hlt ht
      simp [isSolid,hb] at hsolid
  exact hline i v hni (by omega) hv hnewline

theorem isSolid_of_name (h : t.kind = .name) : isSolid t = true := by
  simp [isSolid,h,TokenKind.endsStatement,TokenKind.isLogicallyBlank]

/-! ### What is passed over -/

theorem freshAt_blanks (hnm : n ≤ m) (hfresh : freshAt ts n = true) (hm : m ≤ ts.length)
    (h : Through ts n m (·.kind.isLogicallyBlank = true)) : freshAt ts m = true := by
  induction m with
  | zero =>
    obtain rfl : n = 0 := by omega
    exact hfresh
  | succ m ih =>
    rcases Nat.eq_or_lt_of_le hnm with rfl | hlt
    · exact hfresh
    · have ht : ts[m]? = some (ts[m]) := List.getElem?_eq_getElem hm
      have hblank : (ts[m]).kind.isLogicallyBlank = true := h m _ (by omega) (Nat.lt_succ_self m) ht
      have := ih (by omega) (by omega) (h.part (Nat.le_refl n) (Nat.le_succ m))
      simp [freshAt_succ ht,freshAfter,this,hblank]

/-- Decorators are passed over line by line, up to the definition that they belong to. -/
theorem InBlocks.decorators_no_indent (h : InBlocks ts) (ht : ts[n]? = some t)
    (hmark : t.is .op "@" = true) (hfresh : freshAt ts n = true)
    (hinside : Through ts (n + 1) m (opensDecorated · = false)) : Through ts n m (·.kind ≠ .indent) := by
  -- The induction is on the tokens that are left: it goes from one mark to the next.
  induction hd : ts.length - n using Nat.strongRecOn generalizing n t with
  | ind d ih =>
    subst hd
    have hop : t.kind = .op := by
      simp only [Token.is,Bool.and_eq_true,beq_iff_eq] at hmark
      exact hmark.1
    obtain ⟨e,he,hne,⟨v,hv,hnewline⟩,hline,f,hf,hef,hblanks,w,hw,hnext⟩ := h.decorated n t ht hmark hfresh
    have hfirst : Through ts n f (·.kind ≠ .indent) := by
      refine ((h.no_indent ht ?_ hline).snoc hv (by simp [hnewline])).append ?_
      · simp [isSolid,hop,TokenKind.endsStatement,TokenKind.isLogicallyBlank]
      · refine hblanks.mono fun x hx hindent => ?_
        simp [hindent,TokenKind.isLogicallyBlank] at hx
    by_cases hmf : m ≤ f
    · exact hfirst.part (Nat.le_refl n) hmf
    · have hclosed : opensDecorated w = false := hinside f w (by omega) (by omega) hw
      rw [hclosed] at hnext
      have hfreshf : freshAt ts f = true := by
        refine freshAt_blanks hef ?_ (Nat.le_of_lt hf) hblanks
        simp [freshAt_succ hv,freshAfter,hnewline,TokenKind.endsStatement]
      refine hfirst.append (ih (ts.length - f) (by omega) hw ?_ hfreshf ?_ rfl)
      · simpa using hnext
      · exact hinside.part (by omega) (Nat.le_refl m)

theorem kind_of_word {w : Text} (hmem : guideWords.contains w = true) (hs : isWellSpelled t = true)
    (hv : t.value = w) : t.kind = .name := by
  subst hv
  simp only [isWellSpelled,hmem,Bool.and_eq_true,Bool.not_true,Bool.false_or,beq_iff_eq] at hs
  exact hs.1

theorem Through.mem_mono {P Q : Token → Prop} (h : Through ts n m P) (hPQ : ∀ t ∈ ts, P t → Q t) :
    Through ts n m Q :=
  fun i t h₁ h₂ ht => hPQ t (List.mem_of_getElem? ht) (h i t h₁ h₂ ht)

theorem Passage.no_indent (h : InBlocks ts) (hscan : Scanned ts) (hp : Passage ts n m) :
    Through ts n m (·.kind ≠ .indent) := by
  cases hp with
  | exports word _ inLine =>
    obtain ⟨t,ht,hname⟩ := word
    exact h.no_indent ht (isSolid_of_name hname) inLine
  | decorators mark fresh _ inside =>
    obtain ⟨t,ht,hmark⟩ := mark
    exact h.decorators_no_indent ht hmark fresh inside
  | token other =>
    obtain ⟨t,ht,hkind⟩ := other
    exact (Through.empty (Nat.le_refl n)).snoc ht hkind
  | @imports k m word hk hm source names =>
    obtain ⟨t,ht,-,hv⟩ := word
    have hname := kind_of_word (by decide) (hscan.spelled t (List.mem_of_getElem? ht)) hv
    obtain ⟨u,hu,huk⟩ := h.operand n t ht (by simp [Token.is,hname,hv])
    have hfirst : Through ts n (n + 2) (·.kind ≠ .newline) := by
      refine ((Through.empty (Nat.le_refl n)).snoc ht (by simp [hname])).snoc hu fun hnewline => ?_
      simp [hnewline,TokenKind.endsStatement] at huk
    have hsource : Through ts (n + 2) k (·.kind ≠ .newline) := by
      refine source.mem_mono fun x hx himport hnewline => ?_
      have := kind_of_word (by decide) (hscan.spelled x hx) (himport hnewline)
      rw [hnewline] at this
      cases this
    rcases names with hnames | ⟨v,hv,hopen,hkm,hnames⟩
    · exact h.no_indent ht (isSolid_of_name hname) ((hfirst.append hsource).append hnames)
    · -- Behind the parenthesis that opens, none closes: all that is passed over stands inside.
      have hop : v.kind = .op := by
        simp only [Token.is,Bool.and_eq_true,beq_iff_eq] at hopen
        exact hopen.1
      have hin : Inside ts (k + 1) := Inside.of_opening (b := .round) hv hopen
      have hlist : Through ts (k + 1) m (·.kind ≠ .indent) := by
        intro p x hkp hpm hx hindent
        refine h.enclosed p x hx (by simp [hindent,TokenKind.endsStatement]) (hin.advance hkp ?_)
        refine (hnames.part (Nat.le_refl _) (Nat.le_of_lt hpm)).mono fun y hy b => ?_
        by_cases hyk : y.kind = .op
        · exact b.change_comma (hy hyk)
        · exact b.change_of_kind hyk
      have hbefore := h.no_indent ht (isSolid_of_name hname) (hfirst.append hsource)
      exact (hbefore.snoc hv (by simp [hop])).append hlist

theorem Documented.no_indent {doc : Option Docstring} (h : Documented ts n m doc) :
    Through ts n m (·.kind ≠ .indent) := by
  obtain ⟨k,t,hk,hfillers,ht,-,-,rfl⟩ := h
  have hup : Through ts n k (·.kind ≠ .indent) :=
    hfillers.mono fun x hx hindent => by simp [isFiller,hindent] at hx
  split
  · rename_i hs
    exact hup.snoc ht (by simp [hs])
  · exact hup

theorem HeadersEnd.header_inLine (h : InBlocks ts) (hh : HeadersEnd ts) (header : Headed ts n i) :
    Through ts n (i + 1) (·.kind ≠ .newline) := by
  obtain ⟨t,ht,hname,hword⟩ := header.keyword
  have hkey : isKeyword t = true := by
    rcases hword with hw | hw <;> simp [isKeyword,Token.is,hname,hw]
  obtain ⟨u,hu,hun⟩ := h.named n t ht hkey
  obtain ⟨c,-,hnc,⟨v,hv,hcolon⟩,hlevel,hline⟩ := hh n t ht hkey
  obtain ⟨w,hw,hwcolon⟩ := header.signed.colon
  have hop : w.kind = .op := by
    simp only [Token.is,Bool.and_eq_true,beq_iff_eq] at hwcolon
    exact hwcolon.1
  have hic : i ≤ c := header.signed.first c v hnc hv hcolon hlevel
  have hfirst := ((Through.empty (Nat.le_refl n)).snoc ht (P := (·.kind ≠ .newline)) (by simp [hname])).snoc
    hu (by simp [hun])
  exact (hfirst.append (hline.part (Nat.le_refl _) hic)).snoc hw (by simp [hop])

theorem Inside.no_newline (h : InBlocks ts) (hin : Inside ts n)
    (hfillers : Through ts n k (isFiller · = true)) : Through ts n k (·.kind ≠ .newline) := by
  intro p x hnp hpk hx hnewline
  refine h.enclosed p x hx (by simp [hnewline,TokenKind.endsStatement]) (hin.advance hnp ?_)
  refine (hfillers.part (Nat.le_refl n) (Nat.le_of_lt hpk)).mono fun y hy b => b.change_of_kind fun hop => ?_
  simp [isFiller,hop] at hy

/-! ### Depth -/

theorem net_turn_indent (ht : ts[n]? = some t) (hkind : t.kind = .indent) :
    net turn ts 0 (n + 1) = net turn ts 0 n + 1 := by
  rw [net_succ turn (Nat.zero_le n) ht,turn,if_pos hkind]

theorem net_turn_dedent (ht : ts[n]? = some t) (hkind : t.kind = .dedent) :
    net turn ts 0 (n + 1) = net turn ts 0 n - 1 := by
  rw [net_succ turn (Nat.zero_le n) ht,turn,if_neg (by simp [hkind]),if_pos hkind]
  rfl

/-- A reader of definitions stops where the depth is lower than where it began, or at the end. -/
theorem Gathers.depth {ds : List Definition} (h : InBlocks ts) (hscan : Scanned ts) (hh : HeadersEnd ts)
    (hg : Gathers ts n ds m) : ts.length ≤ m ∨ net turn ts 0 m + 1 ≤ net turn ts 0 n := by
  induction hg with
  | ended hn => exact .inl (Nat.le_of_eq hn)
  | dedent ht =>
    obtain ⟨t,ht,hkind⟩ := ht
    have := net_turn_dedent ht hkind
    omega
  | passing hpass next ih =>
    have := net_turn_le (Nat.le_of_lt hpass.lt) (hpass.no_indent h hscan)
    omega
  | block ht within next ih₁ ih₂ =>
    obtain ⟨t,ht,hkind⟩ := ht
    have := net_turn_indent ht hkind
    have := next.le
    omega
  | @definition n i j l k m d ds header hj opening indent documented children _ _ next ih₁ ih₂ =>
    obtain ⟨t,ht,hname,-⟩ := header.keyword
    obtain ⟨u,hu,hkind⟩ := indent
    have hi := header.signed.le
    have hhead := h.no_indent ht (isSolid_of_name hname) (hh.header_inLine h header)
    have h₁ := net_turn_le (by omega) (hhead.append opening)
    have h₂ := net_turn_indent hu hkind
    have h₃ := net_turn_le documented.le documented.no_indent
    have := next.le
    omega
  | @oneLine n i l k m d ds header first documented rest _ _ _ next ih =>
    obtain ⟨t,ht,hname,-⟩ := header.keyword
    obtain ⟨hni,c,hc,hcsolid,-⟩ := header.colon_solid
    obtain ⟨u,hu,hfirst⟩ := first
    have hdoc := documented.no_newline hu hfirst fun hnl _ =>
      (hscan.joined i c hc hcsolid u hu hnl).no_newline h
    have hl := documented.le
    have := next.le
    rcases rest with ⟨p,v,hlp,rfl,hv,hmatch,hbefore⟩ | ⟨rfl,-⟩
    · -- All that is passed over, up to the end of the line, is on the line of the header.
      have hvn : v.kind = .newline := by simpa [Token.matches] using hmatch
      have hline : Through ts l p (·.kind ≠ .newline) :=
        hbefore.mono fun x hx hnewline => by simp [Token.matches,hnewline] at hx
      have hall := h.no_indent ht (isSolid_of_name hname)
        (((hh.header_inLine h header).append hdoc).append hline)
      have := net_turn_le (by omega) (hall.snoc hv (by simp [hvn]))
      omega
    · exact .inl (by omega)

theorem Parted.exhausted {start j l : Nat} {doc : Option Docstring} {children : List Definition}
    (h : InBlocks ts) (hscan : Scanned ts) (hh : HeadersEnd ts)
    (hparts : Parted ts start doc children j l m) (hm : m ≤ ts.length) : m = ts.length := by
  have hstart : Through ts 0 l (·.kind ≠ .indent) := by
    refine (hparts.fillers.mono fun x hx hindent => ?_).append hparts.documented.no_indent
    simp [isFiller,hindent] at hx
  have hl := net_turn_le (Nat.zero_le l) hstart
  have hbalanced := h.balanced m (by omega)
  have hdepth := hparts.children.depth h hscan hh
  rw [net_self] at hl
  omega

/-- All reading ends. Where tokens stand in blocks and each header ends on its line, a module whose parts
can be read is read to the last token: none is left at the final check. -/
theorem module_exhausts [Resources] (ts : List Token) (name : Text) (source : List Text) : ReadingEnds ∧
    (InBlocks ts → Scanned ts → HeadersEnd ts → ∀ s, State.ofTokens? ts = some s →
      (∃ f s', moduleParts s = .error f s' ∧ module name source s = .error f s') ∨
      ∃ v s₁ m s', moduleParts s = .ok v s₁ ∧ s₁.rest = [] ∧ module name source s = .ok m s') := by
  refine ⟨readingEnds,fun h hscan hh s hs => ?_⟩
  rw [module_run]
  cases hrun : moduleParts s with
  | error f s' => exact .inl ⟨f,s',rfl,rfl⟩
  | ok parts s₁ =>
    obtain ⟨m,-,hs₁,j,l,hparts⟩ := moduleParts_moves.ok (State.ofTokens?_at hs) hrun
    obtain rfl := hparts.exhausted h hscan hh hs₁.le
    have hrest : s₁.rest = [] := by rw [hs₁.rest,List.drop_length]
    exact .inr ⟨parts,s₁,_,_,rfl,hrest,if_pos (by rw [hrest]; rfl)⟩

def blockwise : Text := Text.join "\n" (Text.literals
  ["'''A'''", "from a import (b,", "    c)", "if d:", "  @e", "  # f", "  @g(h)", "  async def i(j=(1)) -> 2:",
    "    # k", "    class L: l = [", "1]", "m = 3"])

open Resources.Builtin

theorem module_exhausts_blockwise : InBlocks (Scan.ofText blockwise).tokens ∧
    Scanned (Scan.ofText blockwise).tokens ∧ HeadersEnd (Scan.ofText blockwise).tokens ∧
    ∃ s parts s₁ m s', State.ofTokens? (Scan.ofText blockwise).tokens = some s ∧
      moduleParts s = .ok parts s₁ ∧ s₁.rest = [] ∧ module "a.py" blockwise.lines s = .ok m s' := by
  have hblocks : InBlocks (Scan.ofText blockwise).tokens := by decide +kernel
  have hscan : Scanned (Scan.ofText blockwise).tokens := by decide +kernel
  have hheaders : HeadersEnd (Scan.ofText blockwise).tokens := by decide +kernel
  have hread : readsTo (Scan.ofText blockwise).tokens moduleParts (fun _ _ => true) = true := by
    decide +kernel
  refine ⟨hblocks,hscan,hheaders,?_⟩
  obtain ⟨s,parts,s₁,hs,hparts,-⟩ := exists_of_readsTo hread
  rcases (module_exhausts _ "a.py" blockwise.lines).2 hblocks hscan hheaders s hs with
    ⟨f,s',hfault,-⟩ | ⟨parts,s₁,m,s',hparts,hrest,hrun⟩
  · rw [hparts] at hfault
    cases hfault
  · exact ⟨s,parts,s₁,m,s',hs,hparts,hrest,hrun⟩

/-- To the grammar, a carriage return ends the first comment and opens a literal that takes up all other
lines. To the tokens these lines are a program, with a header that has no colon of its own. -/
def hiddenBlock : Text := "#\rr'''\ndef f\n    x: z\ny\n#'''"

/-- Its tokens stand in blocks, but the colon of another line is taken for that of the header. With the
indentation before it unseen, reading stops behind the dedentation, and a token is left. -/
theorem hiddenBlock_not_exhausted : Grammar.accepts hiddenBlock = true ∧
    InBlocks (Scan.ofText hiddenBlock).tokens ∧ Scanned (Scan.ofText hiddenBlock).tokens ∧
    ∃ s parts s₁, State.ofTokens? (Scan.ofText hiddenBlock).tokens = some s ∧
      moduleParts s = .ok parts s₁ ∧ s₁.rest ≠ [] ∧
      module "a.py" hiddenBlock.lines s = .error (.mismatch none) s₁ := by
  have hread : readsTo (Scan.ofText hiddenBlock).tokens moduleParts (fun _ s₁ => !s₁.rest.isEmpty) = true := by
    decide +kernel
  obtain ⟨s,parts,s₁,hs,hparts,hleft⟩ := exists_of_readsTo hread
  have hrest : s₁.rest ≠ [] := by
    intro hrest
    rw [hrest] at hleft
    cases hleft
  refine ⟨by decide +kernel,by decide +kernel,by decide +kernel,s,parts,s₁,hs,hparts,hrest,?_⟩
  rw [Bool.not_eq_true'] at hleft
  simp only [module_run,hparts,hleft]
  rfl

end DocLint.Outline
