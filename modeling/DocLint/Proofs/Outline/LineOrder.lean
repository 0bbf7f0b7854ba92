import DocLint.Proofs.Outline.Gathering
import DocLint.Proofs.Token.Rows
import DocLint.Subject

/-!
The lines on which findings are reported, subject after subject. A subject stands on the line of its
docstring, or on that of its keyword if it has none; either way, on a line between the place where
it begins and the place behind it.
-/

set_option autoImplicit false

namespace DocLint

theorem Definition.subjects_eq (m : Module) (ancestors : List Definition) (d : Definition) :
    d.subjects m ancestors = .definition m ancestors d :: childSubjects m (d :: ancestors) d.children := by
  cases d
  rfl

def Definition.line (d : Definition) : Nat := (d.docstring.map (·.start)).getD d.start

theorem Subject.line_eq (s : Subject) : s.line = (s.docstring.map (·.start)).getD s.start := by
  unfold Subject.line
  cases s.docstring <;> rfl

theorem Subject.line_definition (m : Module) (ancestors : List Definition) (d : Definition) :
    (Subject.definition m ancestors d).line = d.line := Subject.line_eq _

theorem childSubjects_append (m : Module) (ancestors ds es : List Definition) :
    childSubjects m ancestors (ds ++ es) = childSubjects m ancestors ds ++ childSubjects m ancestors es := by
  induction ds with
  | nil => rfl
  | cons d ds ih => simp [childSubjects,ih]

namespace Outline

variable {ts : List Token} {n m : Nat} {t u : Token}

def RowsAscend (ts : List Token) : Prop := ts.Pairwise (·.start.row ≤ ·.start.row)

theorem RowsAscend.row_le (h : RowsAscend ts) (hnm : n ≤ m) (ht : ts[n]? = some t)
    (hu : ts[m]? = some u) : t.start.row ≤ u.start.row := by
  rcases Nat.eq_or_lt_of_le hnm with rfl | hlt
  · cases ht.symm.trans hu
    exact Nat.le_refl _
  · obtain ⟨hn,rfl⟩ := List.getElem?_eq_some_iff.mp ht
    obtain ⟨hm,rfl⟩ := List.getElem?_eq_some_iff.mp hu
    exact List.pairwise_iff_getElem.mp h n m hn hm hlt

theorem RowsAscend.rowAt_mono (h : RowsAscend ts) (hnm : n ≤ m) : rowAt ts n ≤ rowAt ts m := by
  cases ht : ts[n]? with
  | none =>
    have hn := List.getElem?_eq_none_iff.mp ht
    have hu : ts[m]? = none := List.getElem?_eq_none_iff.mpr (by omega)
    simp [rowAt,ht,hu]
  | some t =>
    have hn := (List.getElem?_eq_some_iff.mp ht).1
    rw [rowAt_of_getElem? ht]
    cases hu : ts[m]? with
    | some u => exact rowAt_of_getElem? hu ▸ h.row_le hnm ht hu
    | none =>
      have hlast : ts[ts.length - 1]? = some (ts[ts.length - 1]) := List.getElem?_eq_getElem (by omega)
      have hle := h.row_le (m := ts.length - 1) (by omega) ht hlast
      simpa [rowAt,hu,List.getLast?_eq_getElem?,hlast] using hle

theorem Leaps.le {p : Token → Bool} (h : Leaps ts n p m) (hn : n ≤ ts.length) : n ≤ m := by
  rcases h with ⟨i,_,hi,rfl,-⟩ | ⟨rfl,-⟩
  · omega
  · exact hn

theorem Documented.le_length {doc : Option Docstring} (h : Documented ts n m doc) : m ≤ ts.length := by
  obtain ⟨k,t,-,-,ht,-,-,rfl⟩ := h
  have := (List.getElem?_eq_some_iff.mp ht).1
  split <;> omega

theorem Gathers.le {ds : List Definition} (h : Gathers ts n ds m) : n ≤ m := by
  induction h with
  | ended _ => exact Nat.le_refl _
  | dedent _ => omega
  | passing hpass _ ih =>
    have := hpass.lt
    omega
  | block _ _ _ ih₁ ih₂ => omega
  | definition header hj _ _ documented _ _ _ _ ih₁ ih₂ =>
    have := header.signed.le
    have := documented.le
    omega
  | oneLine header _ documented rest _ _ _ _ ih =>
    have := header.signed.le
    have := documented.le
    have := rest.le documented.le_length
    omega

theorem Documented.string {doc : Option Docstring} {d : Docstring} (h : Documented ts n m doc)
    (hd : doc = some d) :
    ∃ k t, n ≤ k ∧ m = k + 1 ∧ ts[k]? = some t ∧ t.kind = .string ∧ d.start = rowAt ts k := by
  obtain ⟨k,t,hk,-,ht,-,rfl,rfl⟩ := h
  simp only [docstringOf] at hd
  split at hd
  · rename_i hs
    cases hd
    exact ⟨k,t,hk,if_pos hs,ht,hs,(rowAt_of_getElem? ht).symm⟩
  · cases hd

/-- The line of something that begins at a place and is documented behind it. -/
theorem Documented.line_bounds {doc : Option Docstring} {start k : Nat} (hrows : RowsAscend ts)
    (h : Documented ts k m doc) (hn : n ≤ k) (hstart : start = rowAt ts n) :
    start ≤ (doc.map (·.start)).getD start ∧ (doc.map (·.start)).getD start ≤ rowAt ts m := by
  have hnm := hrows.rowAt_mono (Nat.le_trans hn h.le)
  cases hd : doc with
  | none => simpa [hstart] using hnm
  | some d =>
    obtain ⟨i,t,hi,rfl,-,-,hline⟩ := h.string hd
    have h₁ := hrows.rowAt_mono (Nat.le_trans hn hi)
    have h₂ := hrows.rowAt_mono (Nat.le_add_right i 1)
    simp only [Option.map_some,Option.getD_some]
    omega

variable {module : Module} {ancestors : List Definition}

theorem lines_cons (d : Definition) (ds : List Definition) :
    (childSubjects module ancestors (d :: ds)).map Subject.line =
      [(Subject.definition module ancestors d).line] ++
        (childSubjects module (d :: ancestors) d.children).map Subject.line ++
        (childSubjects module ancestors ds).map Subject.line := by
  simp [childSubjects,Definition.subjects_eq]

theorem Gathers.lines {ds : List Definition} (hrows : RowsAscend ts) (h : Gathers ts n ds m)
    (module : Module) (ancestors : List Definition) :
    Ascending (rowAt ts n) (rowAt ts m) ((childSubjects module ancestors ds).map Subject.line) := by
  induction h generalizing ancestors with
  | ended _ => exact Ascending.nil
  | dedent _ => exact Ascending.nil
  | passing hpass _ ih =>
    exact (ih ancestors).widen (hrows.rowAt_mono (Nat.le_of_lt hpass.lt)) (Nat.le_refl _)
  | block _ within next ih₁ ih₂ =>
    rw [childSubjects_append,List.map_append]
    have hfirst := (ih₁ ancestors).widen (hrows.rowAt_mono (Nat.le_succ _)) (Nat.le_refl _)
    exact hfirst.append (ih₂ ancestors) (hrows.rowAt_mono (Nat.le_of_succ_le within.le))
      (hrows.rowAt_mono next.le)
  | @definition n i j l k m d ds header hj _ _ documented children start _ next ih₁ ih₂ =>
    have hi := header.signed.le
    have hline := documented.line_bounds (n := n) hrows (by omega) start
    have hl := hrows.rowAt_mono children.le
    have hk := hrows.rowAt_mono next.le
    rw [lines_cons,Subject.line_definition,Definition.line]
    exact ((Ascending.single (start ▸ hline.1) hline.2).append (ih₁ _) (by omega) hl).append (ih₂ ancestors)
      (by omega) hk
  | @oneLine n i l k m d ds header _ documented rest children start _ next ih =>
    have hi := header.signed.le
    have hline := documented.line_bounds (n := n) hrows (by omega) start
    have hl := hrows.rowAt_mono (rest.le documented.le_length)
    have hk := hrows.rowAt_mono next.le
    rw [lines_cons,Subject.line_definition,Definition.line,children]
    exact (Ascending.single (start ▸ hline.1) (by omega)).append (ih ancestors) (by omega) hk

theorem Parted.lines {j l : Nat} (hrows : RowsAscend ts)
    (h : Parted ts module.start module.docstring module.children j l m) :
    (module.subjects.map Subject.line).Pairwise (· ≤ ·) := by
  have hline := h.documented.line_bounds hrows (Nat.zero_le j) h.start
  have hchildren := h.children.lines hrows module []
  have hmodule : (Subject.module module).line =
      (module.docstring.map (·.start)).getD module.start := Subject.line_eq _
  rw [Module.subjects,List.map_cons,hmodule]
  exact ((Ascending.single hline.1 hline.2).append hchildren (by omega)
    (hrows.rowAt_mono h.children.le)).sorted

end Outline

open Outline

theorem Module.run_of_ofText [Resources] {file source : Text} {m : Module} (h : Module.ofText file source = .ok m) :
    ∃ s s', At (Scan.ofText source).tokens 0 s ∧ Outline.module file source.lines s = .ok m s' := by
  have hstate {s : State} (hs : State.ofText source = .ok s) : At (Scan.ofText source).tokens 0 s := by
    unfold State.ofText at hs
    dsimp only at hs
    split at hs
    · rename_i h₁
      cases hs
      exact State.ofTokens?_at h₁
    · cases hs
    · rename_i h₁ _
      cases hs
      cases htokens : (Scan.ofText source).tokens with
      | nil => exact ⟨Nat.le_refl 0,rfl,rfl,rfl⟩
      | cons t ts =>
        rw [htokens] at h₁
        cases h₁
  unfold Module.ofText Outline.ofText at h
  split at h
  · cases h
  · split at h
    · cases h
    · rename_i s hs
      refine ⟨s,?_⟩
      cases hrun : (Outline.module file source.lines).run s with
      | error f s' =>
        rw [hrun] at h
        cases h
      | ok m' s' =>
        rw [hrun] at h
        cases h
        exact ⟨s',hstate hs,hrun⟩

theorem Module.exists_of_ofText [Resources] {file source : Text} {m : Module} (h : Module.ofText file source = .ok m) :
    ∃ ts s s', RowsAscend ts ∧ At ts 0 s ∧ Outline.module file source.lines s = .ok m s' := by
  obtain ⟨s,s',hs,hrun⟩ := Module.run_of_ofText h
  exact ⟨_,s,s',Scan.ofText_rows source,hs,hrun⟩

end DocLint
