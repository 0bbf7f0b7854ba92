import DocLint.Proofs.Token.Located

/-!
Tokens come in the order of their lines. A string that runs over several lines counts with its first
one.
-/

set_option autoImplicit false

namespace DocLint

structure Ascending (lo hi : Nat) (ls : List Nat) : Prop where
  sorted : ls.Pairwise (· ≤ ·)
  bounds : ∀ l ∈ ls, lo ≤ l ∧ l ≤ hi

namespace Ascending

variable {lo mid hi : Nat} {ls ls' : List Nat}

theorem nil : Ascending lo hi [] := ⟨List.Pairwise.nil,by simp⟩

theorem widen {lo' hi' : Nat} (h : Ascending lo hi ls) (hlo : lo' ≤ lo) (hhi : hi ≤ hi') :
    Ascending lo' hi' ls := by
  refine ⟨h.sorted,fun l hl => ?_⟩
  have := h.bounds l hl
  omega

theorem append (h : Ascending lo mid ls) (h' : Ascending mid hi ls') (hlo : lo ≤ mid) (hhi : mid ≤ hi) :
    Ascending lo hi (ls ++ ls') := by
  refine ⟨List.pairwise_append.mpr ⟨h.sorted,h'.sorted,fun a ha b hb => ?_⟩,fun l hl => ?_⟩
  · have h₁ := h.bounds a ha
    have h₂ := h'.bounds b hb
    omega
  · rcases List.mem_append.mp hl with hl | hl
    · have := h.bounds l hl
      omega
    · have := h'.bounds l hl
      omega

theorem single {l : Nat} (hlo : lo ≤ l) (hhi : l ≤ hi) : Ascending lo hi [l] :=
  ⟨List.pairwise_singleton _ _,by simp [hlo,hhi]⟩

end Ascending

namespace Scan

theorem ofText_rows (source : Text) :
    (Scan.ofText source).tokens.Pairwise (·.start.row ≤ ·.start.row) := by
  obtain ⟨hi,h⟩ := ofText_laid source
  refine h.pairwise.imp_of_mem fun {t u} ht _ hle => ?_
  have := (h.located t ht).forward.trans hle
  unfold Position.le at this
  omega

theorem ofText_row_pos {source : Text} {t : Token} (h : t ∈ (Scan.ofText source).tokens) :
    1 ≤ t.start.row := by
  obtain ⟨hi,hlaid⟩ := ofText_laid source
  rcases hlaid.bounds t h with h | ⟨h,-⟩
  · exact Nat.le_of_lt h
  · exact Nat.le_of_eq h

theorem linesFrom_tokens_ne_nil {s : State} {row : Nat} {last : Text} {ls : List Text}
    (h : (linesFrom s row last ls).fault = none) :
    (linesFrom s row last ls).tokens ≠ [] := by
  have hclosing (s : State) (row : Nat) (last : Text) : closing s row last ≠ [] := by simp [closing]
  induction ls generalizing s row last with
  | nil =>
    unfold linesFrom at h ⊢
    split
    · rename_i ho
      simp [ho] at h
    · split
      · exact hclosing s row last
      · rename_i ho hb
        simp [ho,hb] at h
  | cons text rest ih =>
    unfold linesFrom at h ⊢
    split at h
    · simp [ih h]
    · simp [hclosing]
    · cases h

end Scan

end DocLint
