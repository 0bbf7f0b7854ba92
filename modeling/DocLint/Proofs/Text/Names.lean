import DocLint.Proofs.Text.Opening

/-!
Identifiers hold neither whitespace nor punctuation.
-/

set_option autoImplicit false

namespace DocLint.Text

variable {c : Char} {r : Ranges} {t : Text}

def isSolid (r : Ranges) : Bool := r.all fun (first, last) => isApart wideSpaces first last

theorem isSpace_of_isSolid (hr : isSolid r = true) (ha : isAscii c = false) (hc : r.contains c = true) :
    isSpace c = false := by
  obtain ⟨⟨first,last⟩,hmem,hin⟩ := List.any_eq_true.mp hc
  simp only [Bool.and_eq_true,decide_eq_true_eq] at hin
  exact isSpace_of_isApart (List.all_eq_true.mp hr _ hmem) ha hin.1 hin.2

theorem isSolid_ofText {l : List Char} (h : isSolid (Ranges.ofText l) = true) :
    isSolid (Ranges.ofText (String.ofList l).toList) = true := by
  rwa [String.toList_ofList]

theorem isSolid_append {r' : Ranges} (h : isSolid r = true) (h' : isSolid r' = true) : isSolid (r ++ r') = true := by
  rw [isSolid,List.all_append,Bool.and_eq_true]
  exact ⟨h,h'⟩

set_option maxRecDepth 50000 in
theorem isSolid_identifierStartRanges : isSolid Property.identifierStartRanges = true := by
  have hletters : isSolid Property.letterRanges = true := by
    unfold Property.letterRanges
    refine isSolid_ofText ?_
    decide +kernel
  exact isSolid_append hletters (by decide +kernel)

set_option maxRecDepth 50000 in
theorem isSolid_identifierContinueRanges : isSolid Property.identifierContinueRanges = true := by
  have hmarks : isSolid Property.markRanges = true := by
    unfold Property.markRanges
    refine isSolid_ofText ?_
    decide +kernel
  have hrest : isSolid Property.identifierMarkRanges = true := by
    unfold Property.identifierMarkRanges
    refine isSolid_append hmarks (isSolid_ofText ?_)
    decide +kernel
  exact isSolid_append isSolid_identifierStartRanges hrest

def IsInner (c : Char) : Prop := isSpace c = false ∧ c ≠ '(' ∧ c ≠ ':'

theorem isInner_of_ascii (h : isAsciiLetter c = true ∨ isAsciiDigit c = true ∨ c = '_') : IsInner c := by
  have hcode : (48 ≤ c.toNat ∧ c.toNat ≤ 57) ∨ (65 ≤ c.toNat ∧ c.toNat ≤ 122) := by
    rcases h with h | h | rfl
    · simp only [isAsciiLetter,isAsciiLower,isAsciiUpper,Bool.or_eq_true,Bool.and_eq_true,
        decide_eq_true_eq,Char.le_def,UInt32.le_iff_toNat_le] at h
      change (97 ≤ c.toNat ∧ c.toNat ≤ 122) ∨ 65 ≤ c.toNat ∧ c.toNat ≤ 90 at h
      omega
    · simp only [isAsciiDigit,Bool.and_eq_true,decide_eq_true_eq,Char.le_def,UInt32.le_iff_toNat_le] at h
      exact Or.inl h
    · decide
  refine ⟨?_,?_,?_⟩
  · rw [Bool.eq_false_iff,ne_eq,isSpace_iff_of_ascii (by omega)]
    omega
  · rintro rfl
    revert hcode
    decide
  · rintro rfl
    revert hcode
    decide

theorem isInner_of_wide (ha : isAscii c = false) (hs : isSpace c = false) : IsInner c := by
  refine ⟨hs,?_,?_⟩
  · rintro rfl
    cases ha
  · rintro rfl
    cases ha

theorem isInner_of_start (h : isIdentifierStart c = true) : IsInner c := by
  unfold isIdentifierStart at h
  cases ha : isAscii c with
  | true =>
    simp only [ha,if_true,Bool.or_eq_true,beq_iff_eq] at h
    exact isInner_of_ascii (h.imp_right Or.inr)
  | false =>
    simp only [ha,Bool.false_eq_true,if_false] at h
    exact isInner_of_wide ha (isSpace_of_isSolid isSolid_identifierStartRanges ha h)

theorem isInner_of_continue (h : isIdentifierContinue c = true) : IsInner c := by
  unfold isIdentifierContinue at h
  cases ha : isAscii c with
  | true =>
    simp only [ha,if_true,Bool.or_eq_true,beq_iff_eq] at h
    exact isInner_of_ascii (or_assoc.mp h)
  | false =>
    simp only [ha,Bool.false_eq_true,if_false] at h
    exact isInner_of_wide ha (isSpace_of_isSolid isSolid_identifierContinueRanges ha h)

theorem isInner_of_isIdentifier (h : isIdentifier t = true) : ∀ c ∈ t, IsInner c := by
  cases t with
  | nil => cases h
  | cons d t =>
    obtain ⟨hd,ht⟩ := Bool.and_eq_true_iff.mp h
    rintro c (_ | ⟨_,hc⟩)
    · exact isInner_of_start hd
    · exact isInner_of_continue (List.all_eq_true.mp ht c hc)

theorem ne_nil_of_isIdentifier (h : isIdentifier t = true) : t ≠ [] := by
  rintro rfl
  cases h

end DocLint.Text
