import Mathlib.Data.List.TakeWhile

/-!
Lists: their parts, their first elements and what is found in them.
-/

set_option autoImplicit false

namespace DocLint

variable {α β γ : Type}

theorem flatMap_eq_map_iff {f : α → List β} {g : α → β} {l : List α}
    (hf : ∀ a, f a ≠ []) : l.flatMap f = l.map g ↔ ∀ a ∈ l, f a = [g a] := by
  have hlength (l : List α) : l.length ≤ (l.flatMap f).length := by
    induction l with
    | nil => simp
    | cons a l ih =>
      have := List.length_pos_iff.mpr (hf a)
      simp only [List.flatMap_cons,List.length_append,List.length_cons]
      omega
  induction l with
  | nil => simp
  | cons a l ih =>
    rw [List.flatMap_cons,List.map_cons,List.forall_mem_cons]
    constructor
    · intro h
      obtain ⟨b,bs,hb⟩ := List.exists_cons_of_ne_nil (hf a)
      rw [hb,List.cons_append] at h
      obtain ⟨rfl,hrest⟩ := List.cons.inj h
      have hbs : bs = [] := by
        have hl := congrArg List.length hrest
        have := hlength l
        simp only [List.length_append,List.length_map] at hl
        exact List.length_eq_zero_iff.mp (by omega)
      subst hbs
      exact ⟨hb,ih.mp hrest⟩
    · rintro ⟨h,h'⟩
      rw [h,ih.mpr h']
      rfl

theorem exists_first (p : α → Bool) (l : List α) : (∀ x ∈ l, p x = true) ∨
    ∃ pre x xs, l = pre ++ x :: xs ∧ (∀ y ∈ pre, p y = true) ∧ p x = false := by
  induction l with
  | nil => exact .inl (by simp)
  | cons a l ih =>
    cases ha : p a with
    | false => exact .inr ⟨[],a,l,rfl,by simp,ha⟩
    | true =>
      rcases ih with h | ⟨pre,x,xs,rfl,hpre,hx⟩
      · exact .inl (List.forall_mem_cons.mpr ⟨ha,h⟩)
      · exact .inr ⟨a :: pre,x,xs,rfl,List.forall_mem_cons.mpr ⟨ha,hpre⟩,hx⟩

theorem nodup_eraseDups [BEq α] [LawfulBEq α] (l : List α) : l.eraseDups.Nodup := by
  match l with
  | [] => simp
  | a :: l =>
    rw [List.eraseDups_cons,List.nodup_cons]
    refine ⟨by simp [List.mem_eraseDups],nodup_eraseDups _⟩
  termination_by l.length
  decreasing_by
    exact Nat.lt_succ_of_le (List.length_filter_le _ _)

/-- A part of a list that does not come to its end is the same with one more element behind. -/
theorem span_concat {p : α → Bool} {t : α} (ts : List α) (h : p t = false ∨ ts.dropWhile p ≠ []) :
    (ts ++ [t]).takeWhile p = ts.takeWhile p ∧ (ts ++ [t]).dropWhile p = ts.dropWhile p ++ [t] := by
  induction ts with
  | nil =>
    have ht : p t = false := by simpa using h
    simp [ht]
  | cons u us ih =>
    cases hu : p u with
    | false => simp [hu]
    | true =>
      have hus := ih (by simpa [List.dropWhile_cons,hu] using h)
      simp [hu,hus]

theorem findSome?_flatMap (xs : List α) (g : α → List β) (k : β → Option γ) :
    (xs.flatMap g).findSome? k = xs.findSome? fun x => (g x).findSome? k := by
  induction xs with
  | nil => rfl
  | cons x xs ih =>
    rw [List.flatMap_cons,List.findSome?_append,ih,List.findSome?_cons]
    cases (g x).findSome? k <;> rfl

theorem findSome?_some (xs : List α) : xs.findSome? some = xs.head? := by
  cases xs <;> rfl

end DocLint
