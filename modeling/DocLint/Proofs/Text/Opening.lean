import DocLint.Section

/-!
Where texts begin. What is left of a text without the whitespace around it opens with something
else, and so do its first word and its first line; a text that opens with a letter or a digit in
lower case opened with one before.
-/

set_option autoImplicit false

namespace DocLint.Text

section Strip

variable {t cs : Text} {c : Char}

theorem isSpace_of_stripLeft (h : t.stripLeft = c :: cs) : isSpace c = false := by
  have hne : t.dropWhile isSpace ≠ [] := by
    unfold stripLeft at h
    simp [h]
  have hhead := List.head_dropWhile_not isSpace hne
  unfold stripLeft at h
  simpa [h] using hhead

theorem stripRight_append {a b : Text} (hc : isSpace c = false) :
    stripRight (a ++ c :: b) = a ++ c :: stripRight b := by
  unfold stripRight
  rw [List.reverse_append,List.reverse_cons,List.append_assoc,List.dropWhile_append]
  split
  case isTrue h =>
    have hnil : b.reverse.dropWhile isSpace = [] := by simpa using h
    simp [hc,hnil]
  case isFalse h => simp

theorem stripRight_cons (hc : isSpace c = false) : stripRight (c :: cs) = c :: stripRight cs :=
  stripRight_append (a := []) hc

theorem strip_of_stripLeft (h : t.stripLeft = c :: cs) : t.strip = c :: stripRight cs := by
  unfold strip
  rw [h,stripRight_cons (isSpace_of_stripLeft h)]

theorem stripLeft_of_strip (h : t.strip = c :: cs) : ∃ ds, t.stripLeft = c :: ds := by
  cases hd : t.stripLeft with
  | nil => simp [strip,hd,stripRight] at h
  | cons d ds =>
    rw [strip_of_stripLeft hd] at h
    injection h with hc
    exact ⟨ds,by rw [hc]⟩

theorem isSpace_of_strip (h : t.strip = c :: cs) : isSpace c = false := by
  obtain ⟨ds,hd⟩ := stripLeft_of_strip h
  exact isSpace_of_stripLeft hd

theorem strip_of_not_blank (h : isBlank t = false) :
    ∃ c cs, t.strip = c :: cs ∧ isSpace c = false := by
  cases ht : t.strip with
  | nil => simp [isBlank,ht] at h
  | cons c cs => exact ⟨c,cs,rfl,isSpace_of_strip ht⟩

/-- What stands around the text that is left is whitespace, and this text ends with something else. -/
theorem strip_parts (h : isBlank t = false) : ∃ a b u c, t = a ++ t.strip ++ b ∧ (∀ c ∈ a, isSpace c = true) ∧
    (∀ c ∈ b, isSpace c = true) ∧ t.strip = u ++ [c] ∧ isSpace c = false := by
  have hspaces (t : Text) : ∀ c ∈ t.takeWhile isSpace, isSpace c = true := List.all_eq_true.mp List.all_takeWhile
  refine ⟨t.takeWhile isSpace,(t.stripLeft.reverse.takeWhile isSpace).reverse,?_⟩
  cases hrest : t.stripLeft.reverse.dropWhile isSpace with
  | nil => simp [isBlank,strip,stripRight,hrest] at h
  | cons c u =>
    have hc : isSpace c = false := isSpace_of_stripLeft (t := t.stripLeft.reverse) hrest
    refine ⟨u.reverse,c,?_,hspaces t,fun c hc => hspaces _ c (List.mem_reverse.mp hc),?_,hc⟩
    · rw [strip,stripRight,List.append_assoc,← List.reverse_append,List.takeWhile_append_dropWhile,
        List.reverse_reverse,stripLeft,List.takeWhile_append_dropWhile]
    · rw [strip,stripRight,hrest,List.reverse_cons]

theorem strip_strip (t : Text) : t.strip.strip = t.strip := by
  cases h : isBlank t with
  | true =>
    have hnil : t.strip = [] := List.isEmpty_iff.mp h
    rw [hnil]
    rfl
  | false =>
    obtain ⟨d,ds,hopen,hd⟩ := strip_of_not_blank h
    obtain ⟨-,-,u,c,-,-,-,hend,hc⟩ := strip_parts h
    have hleft : stripLeft (d :: ds) = d :: ds := by simp [stripLeft,hd]
    have hright := stripRight_append (a := u) (b := []) hc
    rw [strip,hopen,hleft,← hopen,hend]
    exact hright

theorem words_ne_nil (hc : c ∈ t) (hs : isSpace c = false) : t.words ≠ [] := by
  unfold words
  induction t with
  | nil => simp at hc
  | cons d t ih =>
    rw [List.foldr_cons]
    generalize t.foldr addToWords (false, []) = found at ih
    obtain ⟨inWord,ws⟩ := found
    by_cases hd : isSpace d = true
    · have hmem : c ∈ t := by
        cases List.mem_cons.mp hc with
        | inl heq => simp [← heq,hs] at hd
        | inr hmem => exact hmem
      simpa [addToWords,hd] using ih hmem
    · unfold addToWords
      simp only [hd,Bool.false_eq_true,if_false]
      split <;> simp

theorem words_of_not_blank (h : isBlank t = false) : ∃ w ws, t.words = w :: ws := by
  have hex : ¬∀ c ∈ t, isSpace c = true := fun hall => by simp [(isBlank_iff t).mpr hall] at h
  simp only [Classical.not_forall,Bool.not_eq_true] at hex
  obtain ⟨c,hc,hs⟩ := hex
  exact List.exists_cons_of_ne_nil (words_ne_nil hc hs)

theorem splitLines_cons (c : Char) (cs : Text) : ∃ l ls, splitLines (c :: cs) = (c :: l) :: ls := by
  rw [splitLines.eq_def]
  split
  case h_1 h => cases h
  case h_2 h =>
    obtain ⟨rfl,rfl⟩ := List.cons.inj h
    exact ⟨_,_,rfl⟩
  case h_3 h =>
    obtain ⟨rfl,rfl⟩ := List.cons.inj h
    split
    · exact ⟨_,_,rfl⟩
    · split <;> exact ⟨_,_,rfl⟩

theorem flatten_splitLines (t : Text) : (splitLines t).flatten = t := by
  fun_induction splitLines t with
  | case1 => rfl
  | case2 cs ih => simp [ih]
  | case3 c cs _ _ ih => simp [ih]
  | case4 c cs _ _ heq ih => simp_all
  | case5 c cs _ _ l ls heq ih =>
    rw [heq,List.flatten_cons] at ih
    rw [List.flatten_cons,List.cons_append,ih]

end Strip

section Lower

variable {c d : Char} {t cs ds before after : Text}

def wideSpaces : Ranges :=
  [(0x85, 0x85), (0xA0, 0xA0), (0x1680, 0x1680), (0x2000, 0x200A), (0x2028, 0x2029),
    (0x202F, 0x202F), (0x205F, 0x205F), (0x3000, 0x3000)]

theorem isSpace_of_wide (h : isAscii c = false) : isSpace c = wideSpaces.contains c := by
  have hn : ¬c.toNat < 128 := by simpa [isAscii] using h
  rw [Bool.eq_iff_iff]
  simp only [isSpace,hn,if_false,wideSpaces,Ranges.contains,List.any_cons,List.any_nil,
    Bool.or_eq_true,Bool.and_eq_true,decide_eq_true_eq,beq_iff_eq,Bool.or_false]
  omega

def isApart (r : Ranges) (first last : Nat) : Bool := r.all fun (a, b) => last.blt a || b.blt first

/-- Whether all code points between two belong to a set, in one range of it. -/
def isCovered (r : Ranges) (first last : Nat) : Bool := r.any fun (a, b) => a.ble first && last.ble b

theorem contains_of_isApart {r : Ranges} {first last : Nat} (h : isApart r first last = true)
    (hf : first ≤ c.toNat) (hl : c.toNat ≤ last) : r.contains c = false := by
  rw [Ranges.contains,List.any_eq_false]
  intro x hx
  have := List.all_eq_true.mp h x hx
  simp only [Bool.or_eq_true,Nat.blt_eq,decide_eq_true_eq,Bool.and_eq_true] at this ⊢
  omega

theorem contains_of_isCovered {r : Ranges} {first last : Nat} (h : isCovered r first last = true)
    (hf : first ≤ c.toNat) (hl : c.toNat ≤ last) : r.contains c = true := by
  obtain ⟨x,hx,hcover⟩ := List.any_eq_true.mp h
  refine List.any_eq_true.mpr ⟨x,hx,?_⟩
  simp only [Bool.and_eq_true,Nat.ble_eq,decide_eq_true_eq] at hcover ⊢
  omega

theorem isSpace_of_isApart {first last : Nat} (h : isApart wideSpaces first last = true)
    (hc : isAscii c = false) (hf : first ≤ c.toNat) (hl : c.toNat ≤ last) : isSpace c = false := by
  rw [isSpace_of_wide hc,contains_of_isApart h hf hl]

def holdsEntry (r : Ranges) (e : MappingEntry) : Bool :=
  isCovered r e.first e.last ||
    (List.range ((e.last - e.first) / e.step + 1)).all fun k =>
      isCovered r (e.first + k * e.step) (e.first + k * e.step)

theorem contains_of_holdsEntry {r : Ranges} {e : MappingEntry} (h : holdsEntry r e = true)
    (hf : e.first ≤ c.toNat) (hl : c.toNat ≤ e.last) (hs : (c.toNat - e.first) % e.step = 0) :
    r.contains c = true := by
  simp only [holdsEntry,Bool.or_eq_true,List.all_eq_true,List.mem_range] at h
  rcases h with h | h
  · exact contains_of_isCovered h hf hl
  · have hk : (c.toNat - e.first) / e.step < (e.last - e.first) / e.step + 1 :=
      Nat.lt_succ_of_le (Nat.div_le_div_right (by omega))
    have hn : e.first + (c.toNat - e.first) / e.step * e.step = c.toNat := by
      rw [Nat.div_mul_cancel (Nat.dvd_of_mod_eq_zero hs)]
      omega
    exact contains_of_isCovered (h _ hk) (by omega) (by omega)

/-- Whether an entry leads from characters that are no whitespace to such ones, to a letter of the
alphabet only from a single character, and to the letters and digits of a set only from such ones. -/
def isProperEntry (letters : Ranges) (e : MappingEntry) : Bool :=
  match e.targets with
  | [target] =>
    isApart wideSpaces e.first e.last && isApart wideSpaces target (target + (e.last - e.first)) &&
      (128 ≤ target || (e.last == e.first && target == 0x6B)) &&
      (holdsEntry letters e || (128 ≤ target && isApart letters target (target + (e.last - e.first))))
  | _ => false

def specialCapitals : List Char := [capitalSigma, Char.ofNat 0x130]

/-- Whether this holds of all entries, and the special capitals are letters of the set. -/
def isProperTable (m : Mapping) (letters : Ranges) : Bool :=
  m.all (isProperEntry letters) && specialCapitals.all letters.contains

theorem isProperTable_ofText {l r r' : List Char}
    (h : isProperTable (Mapping.ofText l) (Ranges.ofText r ++ Ranges.ofText r') = true) :
    isProperTable (Mapping.ofText (String.ofList l).toList)
      (Ranges.ofText (String.ofList r).toList ++ Ranges.ofText (String.ofList r').toList) = true := by
  rwa [String.toList_ofList,String.toList_ofList,String.toList_ofList]

set_option maxRecDepth 50000 in
theorem isProper_lowerMapping : isProperTable Property.lowerMapping Property.alnumRanges = true := by
  unfold Property.lowerMapping Property.alnumRanges Property.letterRanges Property.numberRanges
  refine isProperTable_ofText ?_
  decide +kernel

theorem isWord_of_contains (hc : isAscii c = false) (h : Property.alnumRanges.contains c = true) :
    isWord c = true := by
  simp [isWord,isAlnum,hc,h]

theorem isWord_of_specialCapital (hc : c ∈ specialCapitals) : isWord c = true := by
  have hin := List.all_eq_true.mp (Bool.and_eq_true_iff.mp isProper_lowerMapping).2 c hc
  simp only [specialCapitals,List.mem_cons,List.not_mem_nil,or_false] at hc
  obtain rfl | rfl := hc <;> exact isWord_of_contains rfl hin

theorem isAsciiUpper_iff : isAsciiUpper c = true ↔ 65 ≤ c.toNat ∧ c.toNat ≤ 90 := by
  simp [isAsciiUpper,Char.le_def,UInt32.le_iff_toNat_le]

theorem isSpace_iff_of_ascii (h : c.toNat < 128) :
    isSpace c = true ↔ (9 ≤ c.toNat ∧ c.toNat ≤ 13) ∨ (28 ≤ c.toNat ∧ c.toNat ≤ 32) := by
  simp only [isSpace,h,if_true,Bool.or_eq_true,Bool.and_eq_true,decide_eq_true_eq]

theorem toNat_ofNat {n : Nat} (h : n.isValidChar) : (Char.ofNat n).toNat = n :=
  congrArg Char.toNat (dif_pos h)

theorem toNat_ofNat_or (n : Nat) : (Char.ofNat n).toNat = n ∨ Char.ofNat n = Char.ofNat 0 := by
  by_cases h : n.isValidChar
  · exact Or.inl (toNat_ofNat h)
  · exact Or.inr (dif_neg h)

/-- A capital letter of the alphabet becomes a small one, and nothing else changes. -/
theorem lowerAscii_cases (c : Char) :
    (isAsciiUpper c = true ∧ (lowerAscii c).toNat = c.toNat + 32) ∨
      (isAsciiUpper c = false ∧ lowerAscii c = c) := by
  unfold lowerAscii
  cases hc : isAsciiUpper c with
  | false => exact Or.inr ⟨rfl,rfl⟩
  | true =>
    have hn := isAsciiUpper_iff.mp hc
    refine Or.inl ⟨rfl,?_⟩
    rw [if_pos rfl]
    exact toNat_ofNat (Or.inl (by omega))

theorem lowerAscii_of_space (hc : isAscii c = true) (h : isSpace c = true) : lowerAscii c = c := by
  have hn : c.toNat < 128 := by simpa [isAscii] using hc
  rw [isSpace_iff_of_ascii hn] at h
  cases lowerAscii_cases c with
  | inl hup =>
    have := isAsciiUpper_iff.mp hup.1
    omega
  | inr hsame => exact hsame.2

theorem lowerAscii_of_not_space (hc : isAscii c = true) (h : isSpace c = false) :
    isSpace (lowerAscii c) = false ∧ (isWord (lowerAscii c) = true → isWord c = true) := by
  cases lowerAscii_cases c with
  | inl hup =>
    obtain ⟨hup,hn⟩ := hup
    have hrange := isAsciiUpper_iff.mp hup
    refine ⟨?_,fun _ => ?_⟩
    · rw [Bool.eq_false_iff,ne_eq,isSpace_iff_of_ascii (by omega)]
      omega
    · simp [isWord,isAlnum,hc,isAsciiLetter,hup]
  | inr hsame =>
    rw [hsame.2]
    exact ⟨h,id⟩

/-- What the table gives for a character: nothing for whitespace, and no whitespace otherwise. -/
theorem lowerMapping_image {u : Text} (hc : isAscii c = false)
    (h : Property.lowerMapping.image? c = some u) :
    isSpace c = false ∧ ∃ d, u = [d] ∧ isSpace d = false ∧ (isWord d = true → isWord c = true) := by
  obtain ⟨codes,hcodes,rfl⟩ := Option.map_eq_some_iff.mp h
  obtain ⟨e,he,himage⟩ := List.exists_of_findSome?_eq_some hcodes
  have hproper := List.all_eq_true.mp (Bool.and_eq_true_iff.mp isProper_lowerMapping).1 e he
  obtain ⟨first,last,step,targets⟩ := e
  unfold isProperEntry at hproper
  split at hproper
  case h_2 => cases hproper
  case h_1 target heq =>
    subst heq
    simp only [MappingEntry.image?] at himage
    split at himage
    case isFalse => cases himage
    case isTrue hin =>
      cases himage
      simp only [Bool.and_eq_true,Bool.or_eq_true,decide_eq_true_eq,beq_iff_eq] at hproper
      obtain ⟨⟨⟨hfrom,hto⟩,hletter⟩,hwords⟩ := hproper
      have hcode := toNat_ofNat_or (target + (c.toNat - first))
      refine ⟨isSpace_of_isApart hfrom hc hin.1 hin.2.1,_,rfl,?_,fun hword => ?_⟩
      · rcases hcode with hcode | hnull
        · rcases hletter with hwide | ⟨rfl,rfl⟩
          · refine isSpace_of_isApart hto ?_ (by omega) (by omega)
            simp only [isAscii,hcode,decide_eq_false_iff_not]
            omega
          · rw [show c.toNat - last = 0 by omega]
            rfl
        · rw [hnull]
          rfl
      · rcases hwords with hheld | ⟨hwide,hapart⟩
        · exact isWord_of_contains hc (contains_of_holdsEntry hheld hin.1 hin.2.1 hin.2.2)
        · rcases hcode with hcode | hnull
          · have hascii : isAscii (Char.ofNat (target + (c.toNat - first))) = false := by
              simp only [isAscii,hcode,decide_eq_false_iff_not]
              omega
            have hno := contains_of_isApart (c := Char.ofNat (target + (c.toNat - first))) hapart
              (by omega) (by omega)
            have hne : Char.ofNat (target + (c.toNat - first)) ≠ '_' := fun h => by
              rw [h] at hascii
              cases hascii
            simp [isWord,isAlnum,hascii,hno,hne] at hword
          · rw [hnull] at hword
            cases hword

theorem lowerIn_of_space (h : isSpace c = true) : lowerIn before c after = [c] := by
  have hsigma : c ≠ capitalSigma := by
    rintro rfl
    exact absurd h (by decide)
  simp only [lowerIn,hsigma,if_false,lowerChar]
  cases hc : isAscii c with
  | true => simp [lowerAscii_of_space hc h]
  | false =>
    have hdot : c.toNat ≠ 0x130 := by
      intro hn
      simp [isSpace,hn] at h
    have himage : Property.lowerMapping.image? c = none := by
      cases hi : Property.lowerMapping.image? c with
      | none => rfl
      | some u => simp [(lowerMapping_image hc hi).1] at h
    simp [hdot,himage]

/-- The lower case form of what is no whitespace opens with none, and with a letter or a digit only
if it was one. -/
theorem lowerIn_of_not_space (h : isSpace c = false) :
    ∃ d ds, lowerIn before c after = d :: ds ∧ isSpace d = false ∧
      (isWord d = true → isWord c = true) := by
  unfold lowerIn
  split
  case isTrue hsigma =>
    have hword := isWord_of_specialCapital (c := c) (by simp [specialCapitals,hsigma])
    simp only
    split <;> exact ⟨_,_,rfl,by decide,fun _ => hword⟩
  case isFalse hsigma =>
    unfold lowerChar
    cases hc : isAscii c with
    | true =>
      obtain ⟨hspace,hword⟩ := lowerAscii_of_not_space hc h
      exact ⟨_,_,rfl,hspace,hword⟩
    | false =>
      simp only [Bool.false_eq_true,if_false]
      split
      case isTrue hdot =>
        have hc : c = Char.ofNat 0x130 := by rw [← hdot,Char.ofNat_toNat]
        exact ⟨_,_,rfl,by decide,fun _ => isWord_of_specialCapital (by simp [specialCapitals,hc])⟩
      case isFalse hdot =>
        cases hi : Property.lowerMapping.image? c with
        | none => exact ⟨_,_,rfl,h,id⟩
        | some u =>
          obtain ⟨-,d,rfl,hspace,hword⟩ := lowerMapping_image hc hi
          exact ⟨d,[],rfl,hspace,hword⟩

/-- If a text opens with a letter or a digit in lower case, it opened with one before. -/
theorem stripLeft_lowerAfter (h : stripLeft (lowerAfter before t) = d :: ds)
    (hd : isWord d = true) : ∃ c cs, stripLeft t = c :: cs ∧ isWord c = true := by
  induction t generalizing before with
  | nil => simp [lowerAfter,stripLeft] at h
  | cons c cs ih =>
    by_cases hc : isSpace c = true
    · rw [lowerAfter,lowerIn_of_space hc] at h
      simp only [stripLeft,List.cons_append,List.nil_append,List.dropWhile_cons,hc,if_true] at h ⊢
      exact ih h
    · obtain ⟨e,es,he,hs,hw⟩ := @lowerIn_of_not_space c before cs (Bool.eq_false_iff.mpr hc)
      rw [lowerAfter,he] at h
      simp only [stripLeft,List.cons_append,List.dropWhile_cons,hs,hc,Bool.false_eq_true,if_false] at h ⊢
      injection h with hed
      exact ⟨c,cs,rfl,hw (hed ▸ hd)⟩

end Lower

end DocLint.Text
