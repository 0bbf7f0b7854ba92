import DocLint.Proofs.Outline.LineOrder
import DocLint.Resources.Builtin

/-!
The line ranges of definitions are well nested, for all tokens that are laid out as a scanner lays
them out. The last line of a definition with a block is the one before the token behind its block;
it is not above its docstring, because between a token of a statement and an indentation, or the
end of the text, a line has to end.
-/

set_option autoImplicit false

namespace DocLint

def Subject.children : Subject → List Definition
  | .module m => m.children
  | .definition _ _ d => d.children

namespace Outline

variable {ts : List Token} {n m i j : Nat} {t u : Token}

/-! ### Layout -/

def isSolid (t : Token) : Bool := !(t.kind.endsStatement || t.kind.isLogicallyBlank)

def isOpening (t : Token) : Bool := [Bracket.round,.square,.curly].any fun b => t.is .op b.opening

def isClosing (t : Token) : Bool := [Bracket.round,.square,.curly].any fun b => t.is .op b.closing

instance {P : Token → Prop} [DecidablePred P] : Decidable (Through ts n m P) :=
  decidable_of_iff (∀ i < m, n ≤ i → ∀ t ∈ ts[i]?, P t)
    ⟨fun h i t hn hm ht => h i hm hn t ht,fun h i hm hn t ht => h i t hn hm ht⟩

def Each (ts : List Token) (P : Nat → Token → Prop) : Prop := ∀ i t, ts[i]? = some t → P i t

instance {P : Nat → Token → Prop} [∀ i t, Decidable (P i t)] : Decidable (Each ts P) :=
  decidable_of_iff (∀ i < ts.length, ∀ t ∈ ts[i]?, P i t)
    ⟨fun h i t ht => h i (List.getElem?_eq_some_iff.mp ht).1 t ht,fun h i _ t ht => h i t ht⟩

def Enclosed (ts : List Token) (i : Nat) : Prop :=
  ∃ j ≤ i, ∃ k < ts.length, i < k ∧ (∃ t ∈ ts[j]?, isOpening t = true) ∧
    (∃ t ∈ ts[k]?, isClosing t = true) ∧ Through ts j k (·.kind ≠ .newline)

instance : Decidable (Enclosed ts i) := by
  unfold Enclosed
  infer_instance

def BeginsLine (ts : List Token) (i : Nat) : Prop := i = 0 ∨ ∃ t ∈ ts[i - 1]?, t.kind = .newline

instance : Decidable (BeginsLine ts i) := inferInstanceAs (Decidable (_ ∨ _))

structure Layout (ts : List Token) : Prop where
  rows : RowsAscend ts
  later : Each ts fun i t => t.kind = .newline → ∀ u ∈ ts[i + 1]?, t.start.row < u.start.row
  ended : ∃ t ∈ ts.getLast?, t.kind = .endMarker
  led : Each ts fun j t => t.kind = .indent ∨ t.kind = .dedent ∨ j + 1 = ts.length →
    ∃ i ≤ j, BeginsLine ts i ∧ Through ts i j (isSolid · = false)
  /-- A statement goes on behind a line end of no importance inside brackets only. -/
  joined : Each ts fun i t => isSolid t = true → ∀ u ∈ ts[i + 1]?, u.kind = .nl → Enclosed ts i

instance : Decidable (RowsAscend ts) := inferInstanceAs (Decidable (ts.Pairwise _))

instance : Decidable (Layout ts) :=
  decidable_of_iff (RowsAscend ts ∧ _ ∧ _ ∧ _ ∧ _)
    ⟨fun ⟨rows,later,ended,led,joined⟩ => ⟨rows,later,ended,led,joined⟩,
      fun ⟨rows,later,ended,led,joined⟩ => ⟨rows,later,ended,led,joined⟩⟩

/-- Between a token of a statement and a change of the indentation, or the last token, a line ends. -/
theorem Layout.newline_between (h : Layout ts) (hij : i < j) (ht : ts[i]? = some t)
    (hsolid : isSolid t = true) (hu : ts[j]? = some u)
    (hkind : u.kind = .indent ∨ u.kind = .dedent ∨ j + 1 = ts.length) :
    ∃ k v, i < k ∧ k < j ∧ ts[k]? = some v ∧ v.kind = .newline := by
  obtain ⟨k,hk,hbegins,hthrough⟩ := h.led j u hu hkind
  have hik : i < k := Nat.lt_of_not_le fun hki => by
    have hno : isSolid t = false := hthrough i t hki hij ht
    rw [hsolid] at hno
    cases hno
  rcases hbegins with rfl | ⟨v,hv,hnewline⟩
  · omega
  · refine ⟨k - 1,v,?_,by omega,hv,hnewline⟩
    refine Nat.lt_of_le_of_ne (by omega) fun hik => ?_
    rw [← hik] at hv
    cases ht.symm.trans hv
    simp [isSolid,hnewline,TokenKind.endsStatement] at hsolid

theorem Layout.row_lt_of_newline (h : Layout ts) {k : Nat} {v : Token} (hik : i ≤ k) (hkj : k < j)
    (hj : j < ts.length) (hv : ts[k]? = some v) (hnewline : v.kind = .newline) :
    rowAt ts i < rowAt ts j := by
  have hnext : ts[k + 1]? = some (ts[k + 1]) := List.getElem?_eq_getElem (by omega)
  have hlater := h.later k v hv hnewline _ hnext
  rw [← rowAt_of_getElem? hv,← rowAt_of_getElem? hnext] at hlater
  have h₁ := h.rows.rowAt_mono hik
  have h₂ := h.rows.rowAt_mono (n := k + 1) (m := j) (by omega)
  omega

theorem Layout.row_lt (h : Layout ts) (hij : i < j) (ht : ts[i]? = some t)
    (hsolid : isSolid t = true) (hu : ts[j]? = some u)
    (hkind : u.kind = .indent ∨ u.kind = .dedent ∨ j + 1 = ts.length) :
    rowAt ts i < rowAt ts j := by
  obtain ⟨k,v,hik,hkj,hv,hnewline⟩ := h.newline_between hij ht hsolid hu hkind
  exact h.row_lt_of_newline (by omega) hkj (List.getElem?_eq_some_iff.mp hu).1 hv hnewline

theorem Layout.last (h : Layout ts) :
    ∃ t, ts[ts.length - 1]? = some t ∧ t.kind = .endMarker ∧ ts.length - 1 + 1 = ts.length := by
  obtain ⟨t,ht,hkind⟩ := h.ended
  rw [List.getLast?_eq_getElem?] at ht
  have := (List.getElem?_eq_some_iff.mp ht).1
  exact ⟨t,ht,hkind,by omega⟩

/-! ### Ends of blocks -/

/-- A block is read up to a dedentation, or up to the end of the text. -/
theorem Gathers.end_of {ds : List Definition} (h : Gathers ts n ds m) :
    m = ts.length ∨ ∃ j t, n ≤ j ∧ m = j + 1 ∧ ts[j]? = some t ∧ t.kind = .dedent := by
  have hlater {n k m : Nat} (hnk : n ≤ k)
      (h : m = ts.length ∨ ∃ j t, k ≤ j ∧ m = j + 1 ∧ ts[j]? = some t ∧ t.kind = .dedent) :
      m = ts.length ∨ ∃ j t, n ≤ j ∧ m = j + 1 ∧ ts[j]? = some t ∧ t.kind = .dedent := by
    refine h.imp_right ?_
    rintro ⟨j,t,hj,rest⟩
    exact ⟨j,t,by omega,rest⟩
  induction h with
  | ended hn => exact .inl hn.symm
  | dedent ht =>
    obtain ⟨t,ht,hkind⟩ := ht
    exact .inr ⟨_,t,Nat.le_refl _,rfl,ht,hkind⟩
  | passing hpass _ ih => exact hlater (Nat.le_of_lt hpass.lt) ih
  | block _ within _ _ ih => exact hlater (Nat.le_of_succ_le within.le) ih
  | definition header hj _ _ documented children _ _ _ _ ih =>
    have := header.signed.le
    have := documented.le
    have := children.le
    exact hlater (by omega) ih
  | oneLine header _ documented rest _ _ _ _ ih =>
    have := header.signed.le
    have := documented.le
    have := rest.le documented.le_length
    exact hlater (by omega) ih

/-- Behind a block stands a later line than that of any token in it. -/
theorem Layout.row_lt_end (h : Layout ts) {ds : List Definition} (hblock : Gathers ts n ds m)
    (hin : i < n) (ht : ts[i]? = some t) (hsolid : isSolid t = true) (hkind : t.kind ≠ .endMarker) :
    rowAt ts i < rowAt ts m := by
  rcases hblock.end_of with rfl | ⟨j,u,hnj,rfl,hu,hdedent⟩
  · obtain ⟨u,hu,hend,hlast⟩ := h.last
    have hi : i < ts.length - 1 := by
      have := (List.getElem?_eq_some_iff.mp ht).1
      refine Nat.lt_of_le_of_ne (by omega) fun heq => ?_
      subst heq
      cases ht.symm.trans hu
      exact hkind hend
    have := h.row_lt hi ht hsolid hu (.inr (.inr hlast))
    have := h.rows.rowAt_mono (Nat.sub_le ts.length 1)
    omega
  · have := h.row_lt (by omega) ht hsolid hu (.inr (.inl hdedent))
    have := h.rows.rowAt_mono (Nat.le_add_right j 1)
    omega

theorem Headed.colon_solid (h : Headed ts n i) :
    n + 2 ≤ i ∧ ∃ t, ts[i]? = some t ∧ isSolid t = true ∧ t.kind ≠ .endMarker := by
  obtain ⟨t,ht,hcolon⟩ := h.signed.colon
  have hkind : t.kind = .op := by
    simp only [Token.is,Bool.and_eq_true,beq_iff_eq] at hcolon
    exact hcolon.1
  exact ⟨h.signed.le,t,ht,by simp [isSolid,hkind,TokenKind.endsStatement,TokenKind.isLogicallyBlank],
    by simp [hkind]⟩

/-- On its way to a docstring on the same line, a reader passes no end of a line, if it does not behind a
line end of no importance. -/
theorem Documented.no_newline {doc : Option Docstring} (hdoc : Documented ts n m doc) (hu : ts[n]? = some u)
    (hfirst : u.kind ≠ .newline ∧ u.kind ≠ .comment)
    (hnl : u.kind = .nl → ∀ k, Through ts n k (isFiller · = true) → Through ts n k (·.kind ≠ .newline)) :
    Through ts n m (·.kind ≠ .newline) := by
  obtain ⟨k,v,hk,hfillers,hv,hfiller,-,rfl⟩ := hdoc
  have hup : Through ts n k (·.kind ≠ .newline) := by
    by_cases hkind : u.kind = .nl
    · exact hnl hkind k hfillers
    · have hkn : k ≤ n := Nat.le_of_not_lt fun hlt => by
        have hfill : isFiller u = true := hfillers n u (Nat.le_refl n) hlt hu
        simp [isFiller,hfirst,hkind] at hfill
      exact Through.empty hkn
  split
  · exact hup.snoc hv fun hvn => by simp [isFiller,hvn] at hfiller
  · exact hup

/-- Fillers inside brackets that close on the same line are no ends of it. -/
theorem Enclosed.no_newline (h : Enclosed ts i) {k : Nat}
    (hfillers : Through ts (i + 1) k (isFiller · = true)) : Through ts (i + 1) k (·.kind ≠ .newline) := by
  obtain ⟨a,ha,b,hb,hib,-,⟨w,hw,hclosing⟩,hthrough⟩ := h
  have hop : w.kind = .op := by
    simp only [isClosing,List.any_cons,Token.is,Bool.or_eq_true,Bool.and_eq_true,beq_iff_eq] at hclosing
    grind
  have hkb : k ≤ b := Nat.le_of_not_lt fun hbk => by
    have hfill : isFiller w = true := hfillers b w hib hbk hw
    simp [isFiller,hop] at hfill
  exact hthrough.part (by omega) hkb

/-- A body on the line of its header ends before the next line begins. -/
theorem Layout.row_lt_oneLine (h : Layout ts) {doc : Option Docstring} {l k : Nat} (header : Headed ts n i)
    (first : ∃ u, ts[i + 1]? = some u ∧ u.kind ≠ .newline ∧ u.kind ≠ .comment)
    (hdoc : Documented ts (i + 1) l doc) (hrest : Leaps ts l (Token.matches · .newline none) k) :
    rowAt ts l < rowAt ts k := by
  obtain ⟨-,t,ht,hsolid,hend⟩ := header.colon_solid
  obtain ⟨u,hu,hfirst⟩ := first
  have hno := hdoc.no_newline hu hfirst fun hnl _ => (h.joined i t ht hsolid u hu hnl).no_newline
  obtain ⟨e,he,hmark,hlast⟩ := h.last
  have hi : i < ts.length - 1 := by
    have := (List.getElem?_eq_some_iff.mp ht).1
    refine Nat.lt_of_le_of_ne (by omega) fun heq => ?_
    subst heq
    cases ht.symm.trans he
    exact hend hmark
  obtain ⟨q,v,hiq,hq,hv,hnewline⟩ := h.newline_between hi ht hsolid he (.inr (.inr hlast))
  have hlq : l ≤ q := Nat.le_of_not_lt fun hql => hno q v hiq hql hv hnewline
  rcases hrest with ⟨p,w,hlp,rfl,hw,hmatch,-⟩ | ⟨rfl,hthrough⟩
  · have hwn : w.kind = .newline := by simpa [Token.matches] using hmatch
    have hp : p + 1 < ts.length := by
      have := (List.getElem?_eq_some_iff.mp hw).1
      refine Nat.lt_of_le_of_ne (by omega) fun heq => ?_
      obtain rfl : p = ts.length - 1 := by omega
      cases hw.symm.trans he
      rw [hwn] at hmark
      cases hmark
    exact h.row_lt_of_newline hlp (Nat.lt_succ_self p) hp hw hwn
  · have hfalse : Token.matches v .newline none = false := hthrough q v hlq (by omega) hv
    simp [Token.matches,hnewline] at hfalse

/-! ### Nesting -/

inductive Nested : Nat → Nat → List Definition → Prop
  | nil {lo hi : Nat} : Nested lo hi []
  | cons {lo hi : Nat} {d : Definition} {ds : List Definition} (low : lo ≤ d.start)
      (line : d.start ≤ d.line ∧ d.line ≤ d.stop) (high : d.stop < hi)
      (children : Nested (d.start + 1) (d.stop + 1) d.children) (next : Nested (d.stop + 1) hi ds) :
      Nested lo hi (d :: ds)

namespace Nested

variable {lo mid hi : Nat} {ds es : List Definition}

theorem widen {lo' hi' : Nat} (h : Nested lo hi ds) (hlo : lo' ≤ lo) (hhi : hi ≤ hi') :
    Nested lo' hi' ds := by
  induction h generalizing lo' hi' with
  | nil => exact nil
  | cons low line high children next _ ih =>
    exact cons (by omega) line (by omega) children (ih (Nat.le_refl _) hhi)

theorem append (h : Nested lo mid ds) (h' : Nested mid hi es) (hlo : lo ≤ mid) (hhi : mid ≤ hi) :
    Nested lo hi (ds ++ es) := by
  induction ds generalizing lo with
  | nil => exact h'.widen hlo (Nat.le_refl hi)
  | cons d ds ih =>
    cases h with
    | cons low line high children next =>
      exact cons low line (by omega) children (ih next (by omega))

theorem bounds (h : Nested lo hi ds) : ∀ d ∈ ds, lo ≤ d.start ∧ d.stop < hi := by
  induction ds generalizing lo with
  | nil => simp
  | cons d ds ih =>
    cases h with
    | cons low line high children next =>
      intro e he
      rcases List.mem_cons.mp he with rfl | he
      · exact ⟨low,high⟩
      · have := ih next e he
        omega

theorem siblings (h : Nested lo hi ds) : ds.Pairwise fun d e => d.stop < e.start := by
  induction ds generalizing lo with
  | nil => exact List.Pairwise.nil
  | cons d ds ih =>
    cases h with
    | cons low line high children next =>
      exact List.pairwise_cons.mpr ⟨fun e he => (next.bounds e he).1,ih next⟩

variable {module : Module}

theorem starts (h : Nested lo hi ds) (ancestors : List Definition) :
    ((childSubjects module ancestors ds).map Subject.start).Pairwise (· < ·) ∧
      ∀ x ∈ childSubjects module ancestors ds, lo ≤ x.start ∧ x.start < hi := by
  induction h generalizing ancestors with
  | nil => exact ⟨List.Pairwise.nil,by simp [childSubjects]⟩
  | @cons lo hi d ds low line high children next ih₁ ih₂ =>
    obtain ⟨hs₁,hb₁⟩ := ih₁ (d :: ancestors)
    obtain ⟨hs₂,hb₂⟩ := ih₂ ancestors
    have hstart : (Subject.definition module ancestors d).start = d.start := rfl
    simp only [childSubjects,Definition.subjects_eq,List.cons_append,List.map_cons,List.map_append,
      List.pairwise_cons,List.pairwise_append,List.mem_append,List.mem_cons,List.mem_map,hstart]
    refine ⟨⟨?_,hs₁,hs₂,?_⟩,?_⟩
    · rintro _ (⟨x,hx,rfl⟩ | ⟨x,hx,rfl⟩)
      · have := hb₁ x hx
        omega
      · have := hb₂ x hx
        omega
    · rintro _ ⟨x,hx,rfl⟩ _ ⟨y,hy,rfl⟩
      have := hb₁ x hx
      have := hb₂ y hy
      omega
    · rintro x (rfl | hx | hx)
      · rw [hstart]
        omega
      · have := hb₁ x hx
        omega
      · have := hb₂ x hx
        omega

theorem subjects (h : Nested lo hi ds) (ancestors : List Definition) :
    ∀ x ∈ childSubjects module ancestors ds, (x.start ≤ x.line ∧ x.line ≤ x.stop) ∧
      Nested (x.start + 1) (x.stop + 1) x.children := by
  induction h generalizing ancestors with
  | nil => simp [childSubjects]
  | @cons lo hi d ds low line high children next ih₁ ih₂ =>
    simp only [childSubjects,Definition.subjects_eq,List.cons_append,List.mem_cons,List.mem_append]
    rintro x (rfl | hx | hx)
    · exact ⟨by rw [Subject.line_definition]; exact line,children⟩
    · exact ih₁ (d :: ancestors) x hx
    · exact ih₂ ancestors x hx

end Nested

theorem Gathers.nested {ds : List Definition} (h : Layout ts) (hg : Gathers ts n ds m) :
    Nested (rowAt ts n) (rowAt ts m) ds := by
  induction hg with
  | ended _ => exact .nil
  | dedent _ => exact .nil
  | passing hpass _ ih => exact ih.widen (h.rows.rowAt_mono (Nat.le_of_lt hpass.lt)) (Nat.le_refl _)
  | block _ within next ih₁ ih₂ =>
    have hfirst := ih₁.widen (h.rows.rowAt_mono (Nat.le_succ _)) (Nat.le_refl _)
    exact hfirst.append ih₂ (h.rows.rowAt_mono (Nat.le_of_succ_le within.le)) (h.rows.rowAt_mono next.le)
  | @definition n i j l k m d ds header hj _ indent documented children start stop next ih₁ ih₂ =>
    obtain ⟨hni,t,ht,hsolid,hend⟩ := header.colon_solid
    obtain ⟨u,hu,hindent⟩ := indent
    have hl := documented.le
    have hrows := h.rows.rowAt_mono (n := n) (m := i) (by omega)
    have hbody := h.row_lt hj ht hsolid hu (.inl hindent)
    have hdoc := h.rows.rowAt_mono (n := j) (m := l) (by omega)
    have hblock := h.rows.rowAt_mono children.le
    have hnext := h.rows.rowAt_mono next.le
    have hline : d.start ≤ d.line ∧ d.line < rowAt ts k := by
      cases hd : d.docstring with
      | none =>
        have hline : d.line = d.start := by simp [Definition.line,hd]
        omega
      | some doc =>
        obtain ⟨q,w,hq,rfl,hw,hstring,hdocline⟩ := documented.string hd
        have hline : d.line = doc.start := by simp [Definition.line,hd]
        have hafter := h.row_lt_end children (Nat.lt_succ_self q) hw (by simp [isSolid,hstring,
          TokenKind.endsStatement,TokenKind.isLogicallyBlank]) (by simp [hstring])
        have := h.rows.rowAt_mono (n := j) (m := q) (by omega)
        omega
    have hstop : d.stop + 1 = rowAt ts k := by omega
    refine .cons (by omega) (by omega) (by omega) ?_ (ih₂.widen (by omega) (Nat.le_refl _))
    exact ih₁.widen (by omega) (by omega)
  | @oneLine n i l k m d ds header first documented rest children start stop next ih =>
    have hstop := h.row_lt_oneLine header first documented rest
    have hni := header.signed.le
    have hnext := h.rows.rowAt_mono next.le
    have hline := documented.line_bounds (n := n) h.rows (by omega) start
    rw [← stop] at hline
    refine .cons (by omega) hline (by omega) ?_ (ih.widen (by omega) (Nat.le_refl _))
    rw [children]
    exact .nil

/-- The line ranges of a module and its definitions are nested: a definition is reported on a line of its
own range, those inside it keep to this range, side by side without a common line, and from one
definition to the next the first lines increase. -/
theorem ranges_nested [Resources] {s s' : State} {name : Text} {source : List Text} {module : Module} (h : Layout ts)
    (hs : State.ofTokens? ts = some s) (hrun : Outline.module name source s = .ok module s') :
    (∀ x ∈ module.subjects.tail, x.start ≤ x.line ∧ x.line ≤ x.stop) ∧
    (∀ x ∈ module.subjects, (∀ d ∈ x.children, x.start ≤ d.start ∧ d.stop ≤ x.stop) ∧
      x.children.Pairwise fun d e => d.stop < e.start) ∧
    (module.subjects.tail.map Subject.start).Pairwise (· < ·) := by
  obtain ⟨_,-,-,hstop,j,l,hparts⟩ := (module_moves name source).ok (State.ofTokens?_at hs) hrun
  have hnested : Nested (rowAt ts 0) (rowAt ts ts.length) module.children :=
    (hparts.children.nested h).widen (h.rows.rowAt_mono (Nat.zero_le l)) (Nat.le_refl _)
  refine ⟨fun x hx => (hnested.subjects [] x hx).1,fun x hx => ?_,(hnested.starts []).1⟩
  rcases List.mem_cons.mp hx with rfl | hx
  · refine ⟨fun d hd => ?_,hnested.siblings⟩
    have hd := hnested.bounds d hd
    rw [← hparts.start,← hstop] at hd
    exact ⟨hd.1,Nat.le_of_lt hd.2⟩
  · have hchildren := (hnested.subjects [] x hx).2
    refine ⟨fun d hd => ?_,hchildren.siblings⟩
    have := hchildren.bounds d hd
    omega

/-- A class with a docstring over two lines, a method whose header seems to end inside brackets, and
several blocks that end together. -/
def manifold : Text := Text.join "\n" (Text.literals
  ["class A:", "  '''B", "  C'''", "  def f(self) -> \x7b1:", "    ''\x7d: pass", "  def g(self):",
    "    def h(): pass", "def i():", "  ''"])

open Resources.Builtin

theorem ranges_nested_manifold : ∃ s s' module, Layout (Scan.ofText manifold).tokens ∧
    State.ofTokens? (Scan.ofText manifold).tokens = some s ∧
    Outline.module "a.py" manifold.lines s = .ok module s' ∧
    module.subjects.map (fun x => (x.start,x.line,x.stop)) =
      [(1,1,10),(1,2,7),(4,5,5),(6,6,7),(7,7,7),(8,9,9)] ∧
    (∀ x ∈ module.subjects.tail, x.start ≤ x.line ∧ x.line ≤ x.stop) ∧
    (module.subjects.tail.map Subject.start).Pairwise (· < ·) := by
  have hlayout : Layout (Scan.ofText manifold).tokens := by decide +kernel
  have hread : readsTo (Scan.ofText manifold).tokens (Outline.module "a.py" manifold.lines) (fun m _ =>
      m.subjects.map (fun x => (x.start,x.line,x.stop)) ==
        [(1,1,10),(1,2,7),(4,5,5),(6,6,7),(7,7,7),(8,9,9)]) = true := by
    decide +kernel
  obtain ⟨s,module,s',hs,hrun,hranges⟩ := exists_of_readsTo hread
  obtain ⟨hlines,-,hstarts⟩ := ranges_nested hlayout hs hrun
  exact ⟨s,s',module,hlayout,hs,hrun,beq_iff_eq.mp hranges,hlines,hstarts⟩

end Outline

end DocLint
