import DocLint.Proofs.Text.Cutting
import DocLint.Text.Dedent

/-!
The margin that lines have in common. It goes as a whole: lines that are moved to the right, or to the
left within their margin, are the same without it.
-/

set_option autoImplicit false

namespace DocLint.Text

variable {indent a b m : Text} {ls ms : List Text}

theorem isMargin_append : isMargin (a ++ b) = (isMargin a && isMargin b) := List.all_append

theorem isMargin_drop (n : Nat) (h : isMargin a = true) : isMargin (a.drop n) = true :=
  List.all_eq_true.mpr fun c hc => List.all_eq_true.mp h c (List.mem_of_mem_drop hc)

theorem marginOf_append (h : isMargin a = true) : marginOf (a ++ b) = a ++ marginOf b :=
  List.takeWhile_append_of_pos (List.all_eq_true.mp h)

theorem commonMargin_append (p a b : Text) : commonMargin (p ++ a) (p ++ b) = p ++ commonMargin a b := by
  induction p with
  | nil => rfl
  | cons c p ih => simp [commonMargin,ih]

theorem foldl_commonMargin_append (p m : Text) (ms : List Text) :
    (ms.map (p ++ ·)).foldl commonMargin (p ++ m) = p ++ ms.foldl commonMargin m := by
  induction ms generalizing m with
  | nil => rfl
  | cons a ms ih => rw [List.map_cons,List.foldl_cons,commonMargin_append,ih,List.foldl_cons]

theorem foldl_commonMargin_nil (h : [] ∈ m :: ms) : ms.foldl commonMargin m = [] := by
  have hnil (ms : List Text) : ms.foldl commonMargin [] = [] := by
    induction ms with
    | nil => rfl
    | cons a ms ih => simpa [commonMargin] using ih
  induction ms generalizing m with
  | nil => simpa using h
  | cons a ms ih =>
    rw [List.foldl_cons]
    rcases List.mem_cons.mp h with rfl | h
    · simpa [commonMargin] using hnil ms
    · rcases List.mem_cons.mp h with rfl | h
      · have hright : commonMargin m [] = [] := by cases m <;> rfl
        rw [hright]
        exact hnil ms
      · exact ih (List.mem_cons_of_mem _ h)

section Moved

-- Each line holds blanks and tabs only, or opens with the indentation.
variable (hi : isMargin indent = true) (h : ∀ l ∈ ls, isMargin l = true ∨ ∃ u, l = indent ++ u)

include hi h

theorem isMargin_moved : ∀ l ∈ ls, isMargin (l.drop indent.length) = isMargin l := by
  intro l hl
  rcases h l hl with hm | ⟨u,rfl⟩
  · rw [hm,isMargin_drop _ hm]
  · rw [List.drop_left,isMargin_append,hi,Bool.true_and]

theorem filter_moved : ls.filter (fun l => !isMargin l) =
    ((ls.map (·.drop indent.length)).filter fun l => !isMargin l).map (indent ++ ·) := by
  induction ls with
  | nil => rfl
  | cons l ls ih =>
    have hrest := ih fun l' hl' => h l' (List.mem_cons_of_mem l hl')
    have hsame := isMargin_moved hi h l (List.mem_cons_self ..)
    rcases h l (List.mem_cons_self ..) with hm | ⟨u,rfl⟩
    · simp [hsame,hm,hrest]
    · cases hu : isMargin u <;> simp [isMargin_append,hi,hu,hrest]

theorem sharedMargin_moved (hne : ∃ l ∈ ls, isMargin l = false) :
    sharedMargin ls = indent ++ sharedMargin (ls.map (·.drop indent.length)) := by
  unfold sharedMargin
  have hfilter := filter_moved hi h
  generalize (ls.map (·.drop indent.length)).filter (fun l => !isMargin l) = us at hfilter ⊢
  rw [hfilter,List.map_map]
  cases us with
  | nil =>
    obtain ⟨l,hl,hm⟩ := hne
    have hmem : l ∈ ls.filter (fun l => !isMargin l) := List.mem_filter.mpr ⟨hl,by simp [hm]⟩
    simp [hfilter] at hmem
  | cons u us =>
    have hmargins : us.map (marginOf ∘ (indent ++ ·)) = (us.map marginOf).map (indent ++ ·) := by
      simp [marginOf_append hi]
    simp only [List.map_cons,Function.comp_apply,marginOf_append hi,hmargins]
    exact foldl_commonMargin_append indent (marginOf u) (us.map marginOf)

theorem dedentLines_moved : dedentLines (ls.map (·.drop indent.length)) = dedentLines ls := by
  have hsame := isMargin_moved hi h
  unfold dedentLines
  rw [List.map_map]
  refine List.map_congr_left fun l hl => ?_
  simp only [Function.comp_apply,hsame l hl]
  cases hm : isMargin l with
  | true => rfl
  | false =>
    rw [sharedMargin_moved hi h ⟨l,hl,hm⟩,List.length_append,← List.drop_drop]

end Moved

theorem dedentLines_flush (h : ∃ l ∈ ls, isMargin l = false ∧ marginOf l = []) :
    dedentLines ls = ls.map fun l => if isMargin l then [] else l := by
  obtain ⟨l,hl,hm,hempty⟩ := h
  have hnil : sharedMargin ls = [] := by
    have hmem : [] ∈ (ls.filter fun l => !isMargin l).map marginOf :=
      List.mem_map.mpr ⟨l,List.mem_filter.mpr ⟨hl,by simp [hm]⟩,hempty⟩
    unfold sharedMargin
    generalize (ls.filter fun l => !isMargin l).map marginOf = ms at hmem
    cases ms with
    | nil => cases hmem
    | cons m ms => exact foldl_commonMargin_nil hmem
  simp [dedentLines,hnil]

theorem dedent_join (h : ∀ l ∈ ls, '\n' ∉ l) : dedent (join ['\n'] ls) = join ['\n'] (dedentLines ls) := by
  cases ls with
  | nil => rfl
  | cons l ls => rw [dedent,splitOn_join (List.cons_ne_nil l ls) h]

end DocLint.Text
