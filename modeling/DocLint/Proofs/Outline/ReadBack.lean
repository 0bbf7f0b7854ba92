import DocLint.Proofs.Outline.Steps
import DocLint.Resources.Builtin

/-!
Reading a program gives its definitions back, whatever statements it is made of.
-/

set_option autoImplicit false

namespace DocLint.Outline

variable {region : Region} {exporting fresh : Bool} {t : Token} {ts us vs : List Token}
  {ds : List Decorator} {doc : Option Docstring} {found inner : List Definition} {q : Spot}

/-! ### Statements without definitions of their own -/

theorem Code.first_code (c : Code) : isCode c.first = true := by
  have h := c.code
  simp only [List.all_cons,Bool.and_eq_true] at h
  exact h.1

theorem Code.first_opens (c : Code) :
    c.first.is .op "@" = false ∧ c.first.kind.isLogicallyBlank = false := by
  have h := c.opens
  simp only [Bool.or_eq_false_iff] at h
  exact ⟨h.2,h.1⟩

theorem Code.first_not_filler (c : Code) : isFiller c.first = false := by
  have hcode := inner_of_isInLine (isInLine_of_isCode c.first_code)
  have hblank := c.first_opens.2
  unfold isFiller
  cases hk : c.first.kind <;> simp_all [TokenKind.isInner,TokenKind.isLogicallyBlank]

theorem Code.inLine (c : Code) : ∀ x ∈ c.tokens, isInLine x = true := fun x hx =>
  isInLine_of_isCode (List.all_eq_true.mp c.code x hx)

theorem Code.no_definition (c : Code) :
    ∀ x ∈ c.tokens, (x.is .name "def" || x.is .name "class") = false := fun x hx =>
  Bool.eq_false_iff.mpr (List.any_eq_false.mp c.plain x hx)

theorem isWellSpelled_of_isInLine (h : isInLine t = true) : isWellSpelled t = true := by
  simp only [isInLine,Bool.and_eq_true] at h
  exact h.2

theorem Line.inLine (l : Line) : InLine l.toCode.tokens where
  inLine := l.toCode.inLine
  plain := l.toCode.no_definition
  guarded := fun x b hb hx => by
    have hmem : x ∈ l.toCode.tokens := hb.subset List.mem_cons_self
    have hs := List.any_eq_false.mp l.silent x hmem
    have hw := isWellSpelled_of_isInLine (l.toCode.inLine x hmem)
    simp only [Bool.or_eq_true,not_or] at hs
    rcases hx with hx | hx
    · have hn := name_of_word hw hx (by decide)
      exact absurd (by simp only [Token.is,hn,hx,beq_self_eq_true,Bool.and_self]) hs.1
    · have hn := name_of_word hw hx (by decide)
      exact absurd (by simp only [Token.is,hn,hx,beq_self_eq_true,Bool.and_self]) hs.2

theorem Operator.wellSpelled (o : Operator ":") : isWellSpelled o.token = true := by
  unfold isWellSpelled
  rw [value_of_is o.isOperator,kind_of_is o.isOperator]
  decide

theorem Header.inLine (h : Header) (remark : Option (TokenOf .comment)) :
    InLine (h.toCode.tokens ++ h.colon.token :: (remark.map (·.token)).toList) := by
  have hremark : ∀ x ∈ (remark.map (·.token)).toList, x.kind = .comment ∧ isWellSpelled x = true := by
    intro x hx
    simp only [Option.mem_toList,Option.map_eq_some_iff] at hx
    obtain ⟨c,_,rfl⟩ := hx
    exact ⟨c.isKind,c.spelled⟩
  have hcolon := h.colon.isOperator
  have hin : ∀ x ∈ h.toCode.tokens ++ h.colon.token :: (remark.map (·.token)).toList,
      isInLine x = true := by
    intro x hx
    rcases List.mem_append.mp hx with hx | hx
    · exact h.toCode.inLine x hx
    · rcases List.mem_cons.mp hx with rfl | hx
      · simp [isInLine,h.colon.wellSpelled,kind_of_is hcolon,TokenKind.isInner]
      · simp [isInLine,hremark x hx,TokenKind.isInner]
  refine ⟨hin,?_,?_⟩
  · intro x hx
    rcases List.mem_append.mp hx with hx | hx
    · exact h.toCode.no_definition x hx
    · rcases List.mem_cons.mp hx with rfl | hx
      · simp [Token.is,kind_of_is hcolon]
      · simp [Token.is,hremark x hx]
  · intro x b hb hx
    have hw := isWellSpelled_of_isInLine (hin x (hb.subset List.mem_cons_self))
    have hname : x.kind = .name := by
      rcases hx with hx | hx <;> exact name_of_word hw hx (by decide)
    have hxc : x ≠ h.colon.token := fun he => by
      rw [he,kind_of_is hcolon] at hname
      cases hname
    have hxr : x ∉ (remark.map (·.token)).toList := fun hr => by
      rw [(hremark x hr).1] at hname
      cases hname
    obtain ⟨d,rfl,hd⟩ := suffix_before hb hxc hxr
    refine ⟨d,_,_,rfl,hcolon,fun y hy => ?_,fun y hy => (hremark y hy).1⟩
    exact List.all_eq_true.mp h.code y (hd.subset (List.mem_cons_of_mem x hy))

theorem Yields.block [Resources] (bs : List Blank) (i : TokenOf .indent) (hus : us ≠ []) (hlt : vs.length ≤ us.length)
    (hi : Yields region false (.before us true ds) inner (.before vs true ds))
    (h : Yields region exporting (.before vs true ds) found q) :
    Yields region exporting (.before (bs.map (·.token) ++ i.token :: us) true ds) (inner ++ found) q := by
  induction bs with
  | nil => exact Yields.indent i.isKind i.spelled hus hlt hi h
  | cons b bs ih =>
    refine Yields.lineEnd (isFiller_of_blank b.isBlank) b.spelled (by simp) ?_
    rw [freshAfter_blank b.isBlank]
    exact ih

/-! ### Blocks -/

/-- Definitions can be read from some tokens, also if a docstring is read first. -/
structure Reads [Resources] (region : Region) (exporting : Bool) (ts : List Token) (doc : Option Docstring)
    (found : List Definition) (q : Spot) : Prop where
  opens : ∃ x xs, ts = x :: xs ∧ x.kind ≠ .indent
  yields : Yields region exporting (.before ts true []) found q
  documented : ∃ us fresh, us.length ≤ ts.length ∧
    (∀ ds, Loops docstringStep () (.before ts true ds) doc (.before us fresh ds)) ∧
    Yields region exporting (.before us fresh []) found q

namespace Reads

theorem undocumented [Resources] (hf : isFiller t = false) (hs : t.kind ≠ .string) (hi : t.kind ≠ .indent)
    (h : Yields region exporting (.before (t :: ts) true []) found q) :
    Reads region exporting (t :: ts) none found q where
  opens := ⟨t,ts,rfl,hi⟩
  yields := h
  documented := by
    refine ⟨t :: ts,true,Nat.le_refl _,fun ds => ?_,h⟩
    have hd := @Loops.docstring_head t ts true ds hf fun h => absurd h hs
    rwa [docstringOf,if_neg hs,if_neg hs] at hd

theorem blank [Resources] (b : Blank) (h : Reads region exporting ts doc found q) :
    Reads region exporting (b.token :: ts) doc found q := by
  obtain ⟨⟨x,xs,rfl,-⟩,hy,us,fresh,hlt,hd,hu⟩ := h
  have hb := b.isBlank
  refine ⟨⟨_,_,rfl,fun hk => ?_⟩,?_,us,fresh,Nat.le_succ_of_le hlt,fun ds => ?_,hu⟩
  · simp [hk,TokenKind.isLogicallyBlank] at hb
  · exact Yields.lineEnd (isFiller_of_blank hb) b.spelled (by simp) ((freshAfter_blank hb).symm ▸ hy)
  · exact Loops.docstring_blank hb (by simp) (hd ds)

theorem code [Resources] (c : Code) (hne : ts ≠ [])
    (h : ∀ a fresh, a <:+ c.tokens → (fresh = true → a = c.tokens) →
      Yields region exporting (.before (a ++ ts) fresh []) found q) :
    Reads region exporting (c.tokens ++ ts) (docstringOf c.first) found q := by
  have hcode := inner_of_isInLine (isInLine_of_isCode c.first_code)
  have hd := fun ds => @Loops.docstring_head c.first (c.rest ++ ts) true ds c.first_not_filler
    (by simp [hne])
  have hy := h c.tokens true (List.suffix_refl _) fun _ => rfl
  refine ⟨⟨_,_,rfl,fun hk => ?_⟩,hy,?_⟩
  · simp [hk,TokenKind.isInner] at hcode
  · by_cases hs : c.first.kind = .string
    · simp only [hs,if_true] at hd
      exact ⟨c.rest ++ ts,false,by simp [Code.tokens],hd,
        h c.rest false (List.suffix_cons _ _) (by simp)⟩
    · simp only [hs,if_false] at hd
      exact ⟨c.tokens ++ ts,true,Nat.le_refl _,hd,hy⟩

end Reads

theorem Line.reads [Resources] (l : Line) (hus : us ≠ [])
    (h : Yields region exporting (.before us true []) found q) :
    Reads region exporting (l.tokens ++ us) (docstringOf l.first) found q := by
  rw [Line.tokens,List.append_assoc]
  refine Reads.code l.toCode (by simp) fun a fresh ha hf => ?_
  refine (l.inLine.suffix ha).yields l.newline.isKind l.newline.spelled hus ?_ h
  rintro hfresh x b rfl
  obtain ⟨rfl,rfl⟩ := List.cons.inj (hf hfresh)
  exact l.toCode.first_opens

/-- The definitions in the block of a compound statement belong to the region around it. -/
theorem Header.reads [Resources] (h : Header) (o : Opening) (hus : us ≠ []) (hlt : vs.length ≤ us.length)
    (hi : Yields region false (.before us true []) inner (.before vs true []))
    (hv : Yields region exporting (.before vs true []) found q) :
    Reads region exporting (h.tokens ++ (o.tokens ++ us)) (docstringOf h.first) (inner ++ found) q := by
  have htokens : h.tokens ++ (o.tokens ++ us) = h.toCode.tokens ++
      (h.colon.token :: (o.remark.map (·.token)).toList ++ o.newline.token ::
        (o.blanks.map (·.token) ++ o.indent.token :: us)) := by
    simp [Header.tokens,Opening.tokens,Opening.fillers]
  rw [htokens]
  refine Reads.code h.toCode (by simp) fun a fresh ha hf => ?_
  have hin : InLine (a ++ h.colon.token :: (o.remark.map (·.token)).toList) := by
    obtain ⟨e,he⟩ := ha
    refine (h.inLine o.remark).suffix ⟨e,?_⟩
    rw [← List.append_assoc,he]
  rw [← List.append_assoc]
  refine hin.yields o.newline.isKind o.newline.spelled (by simp) ?_
    (Yields.block o.blanks o.indent hus hlt hi hv)
  intro hfresh x b hx
  rw [hf hfresh] at hx
  obtain ⟨rfl,-⟩ := List.cons.inj hx
  exact h.toCode.first_opens

/-! ### Definitions in a block -/

theorem Head.opensDecorated_keyword (h : Head) : opensDecorated h.keyword = true := by
  unfold opensDecorated
  rw [h.keyword_kind]
  rcases (Bool.or_eq_true _ _).mp h.isKeyword with hk | hk <;> rw [value_of_is hk] <;> decide

theorem Yields.async [Resources] {a : TokenOf .name} (ha : a.token.value = "async".toList) (hus : us ≠ [])
    (h : Yields region exporting (.before us false ds) found q) :
    Yields region exporting (.before (a.token :: us) true ds) found q := by
  have hk := a.isKind
  refine Yields.pass_of_move ?_ ?_ ?_ ?_ (by simp [hk]) (Runs.move hus) (Nat.le_refl _) ?_
  · rw [ha,show ("async".toList == exportName) = false by decide,Bool.and_false]
  · rw [is_op_of_kind_ne (by simp [hk]),Bool.false_and]
  · rw [ha]; decide
  · rw [ha]; decide
  · rwa [freshAfter_name hk]

theorem Head.yields [Resources] (h : Head)
    (hcore : ∀ fresh, Yields region exporting
      (.before (h.core ++ us) fresh (h.decorators.map DecoratorLine.decorator)) found q) :
    Yields region exporting (.before (h.tokens ++ us) true []) found q := by
  have hopen : ∃ t ts, (h.async.map (·.token)).toList ++ (h.core ++ us) = t :: ts ∧
      opensDecorated t = true ∧ Yields region exporting
        (.before (t :: ts) true (h.decorators.map DecoratorLine.decorator)) found q := by
    cases ha : h.async with
    | none => exact ⟨_,_,rfl,h.opensDecorated_keyword,hcore true⟩
    | some a =>
      have hv : a.token.value = "async".toList := by simpa [ha] using h.isAsync
      refine ⟨_,_,rfl,?_,Yields.async hv (by simp [Head.core]) (hcore false)⟩
      simp only [opensDecorated,a.isKind,hv]
      decide
  obtain ⟨t,ts,he,ht,hy⟩ := hopen
  rw [Head.tokens,List.append_assoc,List.append_assoc,he]
  cases hd : h.decorators with
  | nil => simpa [hd] using hy
  | cons l ls => exact Yields.decorators l ls ht (hd ▸ hy)

theorem Head.first_token (h : Head) :
    ∃ t ts, h.tokens = t :: ts ∧ (t.kind = .op ∨ t.kind = .name) := by
  cases hd : h.decorators with
  | cons l ls =>
    exact ⟨_,_,by simp only [Head.tokens,hd]; rfl,.inl (kind_of_is l.mark.isOperator)⟩
  | nil =>
    cases ha : h.async with
    | none => exact ⟨_,_,by simp only [Head.tokens,hd,ha]; rfl,.inr h.keyword_kind⟩
    | some a => exact ⟨_,_,by simp only [Head.tokens,hd,ha]; rfl,.inr a.isKind⟩

theorem Head.reads [Resources] (h : Head) {d : Definition} (hvs : vs.length ≤ us.length)
    (hd : ∀ fresh fuel, (h.core ++ us).length ≤ fuel → Runs
      (definitionWith (fun r => definitionsWithin fuel r false) (h.kindIn region))
      (.before (h.core ++ us) fresh (h.decorators.map DecoratorLine.decorator)) d (.before vs true []))
    (hv : Yields region exporting (.before vs true []) found q) :
    Reads region exporting (h.tokens ++ us) none (d :: found) q := by
  have hy : Yields region exporting (.before (h.tokens ++ us) true []) (d :: found) q := by
    refine h.yields fun fresh => Yields.definition h.isKeyword ?_ (fun fuel hfuel => ?_) hv
    · simp; omega
    · exact hd fresh fuel hfuel
  obtain ⟨t,ts,ht,hk⟩ := h.first_token
  rw [ht] at hy ⊢
  refine Reads.undocumented ?_ ?_ ?_ hy
  · rcases hk with hk | hk <;> simp [isFiller,hk]
  · rcases hk with hk | hk <;> simp [hk]
  · rcases hk with hk | hk <;> simp [hk]

/-! ### Whole blocks -/

theorem rowOf_append_cons (ts us : List Token) : rowOf (ts ++ t :: us) = rowOf (ts ++ [t]) := by
  cases ts <;> rfl

theorem Block.definitions_after (b : Block) (region : Region) (us : List Token) :
    b.definitions region (t :: us) = b.definitions region [t] := by
  induction b with
  | done => rfl
  | blank b next ih => exact ih
  | simple l next ih => exact ih
  | compound h o body stop next _ ih => simp only [definitions,ih]
  | definition h o body stop next _ ih => simp only [definitions,ih,rowOf_append_cons]
  | oneLine h body next ih => simp only [definitions,ih]

theorem Block.reads [Resources] (b : Block) {us : List Token} (ht : t.kind = .dedent ∨ t.kind = .endMarker)
    (h : Yields region exporting (.before (t :: us) true []) found q) :
    Reads region exporting (b.tokens ++ t :: us) b.docstring
      (b.definitions region (t :: us) ++ found) q := by
  induction b generalizing region exporting t us found q with
  | done =>
    refine Reads.undocumented ?_ ?_ ?_ h
    · rcases ht with hk | hk <;> simp [isFiller,hk]
    · rcases ht with hk | hk <;> simp [hk]
    · rcases ht with hk | hk <;> simp [hk]
  | blank b next ih => exact Reads.blank b (ih ht h)
  | simple l next ih =>
    simp only [tokens,List.append_assoc]
    exact l.reads (by simp) (ih ht h).yields
  | compound hd o body stop next ihb ihn =>
    have hstop : Yields region false (.before (stop.token :: (next.tokens ++ t :: us)) true []) []
        (.before (next.tokens ++ t :: us) true []) :=
      Yields.dedent stop.isKind stop.spelled (by simp)
    have hb := (ihb (.inl stop.isKind) hstop).yields
    rw [List.append_nil,definitions_after] at hb
    have hr := hd.reads o (by simp) (by simp; omega) hb (ihn ht h).yields
    simpa [tokens,definitions,docstring] using hr
  | definition hd o body stop next ihb ihn =>
    have hstop : Yields (.within (hd.kindIn region)) false
        (.before (stop.token :: (next.tokens ++ t :: us)) true []) []
        (.before (next.tokens ++ t :: us) true []) :=
      Yields.dedent stop.isKind stop.spelled (by simp)
    obtain ⟨hopen,-,vs,fresh',hlt,hdoc,hin⟩ := ihb (.inl stop.isKind) hstop
    rw [List.append_nil,definitions_after] at hin
    simp only [tokens,List.append_assoc,List.cons_append]
    refine hd.reads (by simp; omega) (fun fresh fuel hfuel => ?_) (ihn ht h).yields
    refine definitionWith_block hd o hopen (hdoc _).docstring (hin fuel ?_)
    simp only [Spot.before,Head.core,List.length_append,List.length_cons] at hfuel hlt ⊢
    omega
  | oneLine hd body next ih =>
    simp only [tokens,List.append_assoc]
    refine hd.reads (by simp) (fun fresh fuel _ => ?_) (ih ht h).yields
    exact definitionWith_line hd body (by simp)

/-! ### Programs -/

theorem Block.tokens_remarks (b : Block) (ht : t.kind = .dedent ∨ t.kind = .endMarker)
    (us : List Token) :
    ∃ x xs, b.tokens ++ t :: us = b.remarks ++ x :: xs ∧ isFiller x = false ∧
      ∀ y ∈ b.remarks, isFiller y = true := by
  have hhead (h : Head) : ∃ x xs, h.tokens = x :: xs ∧ isFiller x = false := by
    obtain ⟨x,xs,hx,hk⟩ := h.first_token
    exact ⟨x,xs,hx,by rcases hk with hk | hk <;> simp [isFiller,hk]⟩
  induction b with
  | done => exact ⟨t,us,rfl,by rcases ht with hk | hk <;> simp [isFiller,hk],by simp [remarks]⟩
  | blank b next ih =>
    obtain ⟨x,xs,hx,hf,hr⟩ := ih
    refine ⟨x,xs,by simp only [tokens,remarks,List.cons_append,hx],hf,fun y hy => ?_⟩
    rcases List.mem_cons.mp hy with rfl | hy
    · exact isFiller_of_blank b.isBlank
    · exact hr y hy
  | simple l next _ => exact ⟨_,_,rfl,l.toCode.first_not_filler,by simp [remarks]⟩
  | compound h o body stop next _ _ => exact ⟨_,_,rfl,h.toCode.first_not_filler,by simp [remarks]⟩
  | definition h o body stop next _ _ =>
    obtain ⟨x,xs,hx,hf⟩ := hhead h
    exact ⟨x,_,by simp only [tokens,hx]; rfl,hf,by simp [remarks]⟩
  | oneLine h body next _ =>
    obtain ⟨x,xs,hx,hf⟩ := hhead h
    exact ⟨x,_,by simp only [tokens,hx]; rfl,hf,by simp [remarks]⟩

/-- Comments before the first statement count neither for the docstring nor for the definitions. -/
theorem Block.drop_remarks (b : Block) {fs : List Token} (h : fs <:+ b.remarks) :
    ∃ (ds : List Token) (b' : Block), b.tokens = ds ++ b'.tokens ∧ b.remarks = ds ++ fs ∧
      b'.docstring = b.docstring ∧ b'.definitions = b.definitions := by
  induction b with
  | blank b next ih =>
    rcases List.suffix_cons_iff.mp h with rfl | h
    · exact ⟨[],.blank b next,rfl,rfl,rfl,rfl⟩
    · obtain ⟨ds,b',ht,hr,hd,hf⟩ := ih h
      exact ⟨b.token :: ds,b',by simp [tokens,ht],by simp [remarks,hr],hd,hf⟩
  | _ =>
    rw [List.suffix_nil.mp h]
    exact ⟨[],_,rfl,rfl,rfl,rfl⟩

theorem State.ofTokens?_spot (h : ts ≠ []) :
    ∃ s, State.ofTokens? ts = some s ∧ s.spot = .before ts true [] := by
  cases ts with
  | nil => exact absurd rfl h
  | cons t ts => exact ⟨_,rfl,rfl⟩

/-- A module is read up to the end of its text. Its definitions are those of the program, each one
among the children of the innermost definition around it. -/
theorem module_program [Resources] (p : Program) (name : Text) (source : List Text) :
    ∃ s s', State.ofTokens? p.tokens = some s ∧ s'.rest = [] ∧
      module name source s =
        .ok (p.outline name source s'.exports s'.exportFault s'.features) s' := by
  have hmark : p.stop.token.kind = .dedent ∨ p.stop.token.kind = .endMarker := .inr p.stop.isKind
  obtain ⟨x,xs,htokens,hx,hfill⟩ := p.statements.tokens_remarks hmark []
  obtain ⟨fs,fresh,hfs,hfresh,hskip⟩ := @skipComment_runs x xs true [] _ hfill hx
  obtain rfl := hfresh rfl
  obtain ⟨es,b,hb,hremarks,hdoc,hdef⟩ := p.statements.drop_remarks hfs
  have hrest : fs ++ x :: xs = b.tokens ++ [p.stop.token] := by
    rw [hb,hremarks,List.append_assoc,List.append_assoc] at htokens
    exact (List.append_cancel_left htokens).symm
  have hend := @Yields.endMarker .module true true p.stop.token [] _ p.stop.isKind p.stop.spelled
  obtain ⟨-,-,us,fresh',-,hloop,hy⟩ := b.reads hmark hend
  rw [List.append_nil,congrFun (congrFun hdef .module) [p.stop.token]] at hy
  rw [← htokens,hrest] at hskip
  obtain ⟨s,hs,hspot⟩ := @State.ofTokens?_spot p.tokens (by simp [Program.tokens])
  obtain ⟨s₁,e₁,h₁⟩ := (Runs.note .module).step (β := Module) hspot
  obtain ⟨s₂,e₂,h₂⟩ := Runs.line.step (β := Module) e₁
  obtain ⟨s₃,e₃,h₃⟩ := hskip.step (β := Module) e₂
  obtain ⟨s₄,e₄,h₄⟩ := (hloop []).docstring.step (β := Module) e₃
  obtain ⟨s₅,e₅,h₅⟩ := hy.runs.step (β := Module) e₄
  obtain ⟨s₆,e₆,h₆⟩ := Runs.current?.step (β := Module) e₅
  obtain ⟨hnil,hline,-,-⟩ := Spot.mk.inj e₆
  refine ⟨s,{ s₆ with notes := .moduleDone :: s₆.notes },hs,hnil,?_⟩
  rw [module,h₁,h₂,h₃,h₄,h₅,h₆]
  rw [if_neg (by simp),Program.outline,← hdoc,← hline]
  rfl

/-- A method in a class, with its docstring. -/
def classed : Text := "class A:\n  def f(x):\n    'Do.'\n"

namespace Classed

def tokenAt (kind : TokenKind) (value : Text) (row col : Nat) (line : Text) : Token :=
  { kind, value, start := ⟨row, col⟩, stop := ⟨row, col + value.length⟩, line }

def first : Text := "class A:\n"

def second : Text := "  def f(x):\n"

def third : Text := "    'Do.'\n"

def outerHead : Head where
  decorators := []
  async := none
  keyword := tokenAt .name "class" 1 0 first
  name := tokenAt .name "A" 1 6 first
  signature := none
  colon := ⟨tokenAt .op ":" 1 7 first, by decide⟩
  isAsync := Head.not_async
  isKeyword := by decide

def innerHead : Head where
  decorators := []
  async := none
  keyword := tokenAt .name "def" 2 2 second
  name := tokenAt .name "f" 2 6 second
  signature := some ⟨⟨tokenAt .op "(" 2 7 second, by decide⟩, [tokenAt .name "x" 2 8 second],
    ⟨tokenAt .op ")" 2 9 second, by decide⟩, [], by decide, by decide⟩
  colon := ⟨tokenAt .op ":" 2 10 second, by decide⟩
  isAsync := Head.not_async
  isKeyword := by decide

def opening (newline indent : Token) (hn : newline.kind = .newline ∧ isWellSpelled newline = true)
    (hi : indent.kind = .indent ∧ isWellSpelled indent = true) : Opening :=
  ⟨none, ⟨newline, hn.1, hn.2⟩, [], ⟨indent, hi.1, hi.2⟩⟩

def docLine : Line where
  first := tokenAt .string "'Do.'" 3 4 third
  rest := []
  code := by decide
  opens := by decide
  plain := by decide
  silent := by decide
  newline := ⟨tokenAt .newline "\n" 3 9 third, by decide, by decide⟩

def dedent : TokenOf .dedent := ⟨tokenAt .dedent [] 4 0 [], rfl, by decide⟩

def program : Program where
  statements :=
    .definition outerHead
      (opening (tokenAt .newline "\n" 1 8 first) (tokenAt .indent "  " 2 0 second) (by decide) (by decide))
      (.definition innerHead
        (opening (tokenAt .newline "\n" 2 11 second) (tokenAt .indent "    " 3 0 third) (by decide) (by decide))
        (.simple docLine .done) dedent .done)
      dedent .done
  stop := ⟨tokenAt .endMarker [] 4 0 [], rfl, by decide⟩

end Classed

open Resources.Builtin

theorem module_program_classed : Classed.program.tokens = (Scan.ofText classed).tokens ∧
    Classed.program.definitions.map (fun d => (d.kind, d.name, d.children.map fun c => (c.kind, c.docstring))) =
      [(.plainClass, "A".toList, [(.method, some ⟨"'Do.'".toList, 3, 3⟩)])] ∧
    ∃ s s', State.ofTokens? (Scan.ofText classed).tokens = some s ∧ s'.rest = [] ∧
      module "a.py" classed.lines s = .ok (Classed.program.outline "a.py" classed.lines s'.exports s'.exportFault
        s'.features) s' := by
  have htokens : Classed.program.tokens = (Scan.ofText classed).tokens := by decide +kernel
  exact ⟨htokens,by decide,htokens ▸ module_program Classed.program "a.py" classed.lines⟩

end DocLint.Outline
