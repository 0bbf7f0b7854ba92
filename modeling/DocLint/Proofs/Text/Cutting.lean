import DocLint.Text

/-!
Texts cut at a separator. Pieces that do not hold it are found again in the text that they are joined to.
-/

set_option autoImplicit false

namespace DocLint.Text

theorem splitOn_of_not_mem {sep : Char} {t : Text} (h : sep ∉ t) : splitOn sep t = [t] := by
  induction t with
  | nil => rfl
  | cons c t ih =>
    simp only [List.mem_cons,not_or] at h
    simp only [splitOn,ih h.2,if_neg (Ne.symm h.1)]

theorem splitOn_append_cons (sep : Char) (a b : Text) :
    splitOn sep (a ++ sep :: b) = splitOn sep a ++ splitOn sep b := by
  induction a with
  | nil =>
    cases hs : splitOn sep b with
    | nil => exact absurd hs (splitOn_ne_nil sep b)
    | cons q qs => simp [splitOn,hs]
  | cons c a ih =>
    cases hs : splitOn sep a with
    | nil => exact absurd hs (splitOn_ne_nil sep a)
    | cons q qs =>
      simp only [List.cons_append,splitOn,ih,hs]
      split <;> rfl

theorem splitOn_append {sep : Char} {p : Text} (h : sep ∉ p) (t : Text) :
    splitOn sep (p ++ sep :: t) = p :: splitOn sep t := by
  rw [splitOn_append_cons,splitOn_of_not_mem h]
  rfl

theorem splitOn_join {sep : Char} {ps : List Text} (hne : ps ≠ []) (h : ∀ p ∈ ps, sep ∉ p) :
    splitOn sep (join [sep] ps) = ps := by
  induction ps with
  | nil => exact absurd rfl hne
  | cons p ps ih =>
    cases ps with
    | nil => exact splitOn_of_not_mem (h p (by simp))
    | cons q qs =>
      rw [show join [sep] (p :: q :: qs) = p ++ sep :: join [sep] (q :: qs) by simp [join],
        splitOn_append (h p (by simp)),ih (by simp) fun r hr => h r (List.mem_cons_of_mem p hr)]

theorem not_mem_of_mem_splitOn {sep : Char} {p t : Text} (h : p ∈ splitOn sep t) : sep ∉ p := by
  induction t generalizing p with
  | nil =>
    obtain rfl : p = [] := by simpa [splitOn] using h
    simp
  | cons c t ih =>
    cases hs : splitOn sep t with
    | nil => exact absurd hs (splitOn_ne_nil sep t)
    | cons q qs =>
      simp only [splitOn,hs] at h ih
      by_cases hc : c = sep
      · rw [if_pos hc] at h
        rcases List.mem_cons.1 h with rfl | h
        · simp
        · exact ih h
      · rw [if_neg hc] at h
        rcases List.mem_cons.1 h with rfl | h
        · simpa [Ne.symm hc] using ih (List.mem_cons_self ..)
        · exact ih (List.mem_cons_of_mem q h)

theorem join_append {sep : Text} {ps qs : List Text} (hp : ps ≠ []) (hq : qs ≠ []) :
    join sep (ps ++ qs) = join sep ps ++ sep ++ join sep qs := by
  obtain ⟨q,qs,rfl⟩ := List.exists_cons_of_ne_nil hq
  induction ps with
  | nil => exact absurd rfl hp
  | cons p ps ih =>
    cases ps with
    | nil => rfl
    | cons r rs =>
      have hrest := ih (by simp)
      simp only [List.cons_append,join] at hrest ⊢
      simp [hrest]

end DocLint.Text
