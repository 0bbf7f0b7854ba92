import DocLint.Proofs.Text.Opening

/-!
Words of texts, words in lower case, and beginnings that words have in common.
-/

set_option autoImplicit false

namespace DocLint

namespace Text

variable {a b p r t w : Text} {c x y : Char} {ws : List Text}

/-! ### Words of a text -/

theorem foldr_addToWords_spaces (ha : ∀ c ∈ a, isSpace c = true) (p : Bool × List Text) :
    (a.foldr addToWords p).2 = p.2 := by
  induction a with
  | nil => rfl
  | cons c a ih =>
    obtain ⟨hc,ha⟩ := List.forall_mem_cons.mp ha
    simp [addToWords,hc,ih ha]

theorem foldr_addToWords_word (hne : w ≠ []) (hw : ∀ c ∈ w, isSpace c = false) :
    w.foldr addToWords (false, ws) = (true, w :: ws) := by
  induction w with
  | nil => exact absurd rfl hne
  | cons c w ih =>
    obtain ⟨hc,hw⟩ := List.forall_mem_cons.mp hw
    cases w with
    | nil => simp [addToWords,hc]
    | cons d w => simp [-List.foldr_cons,List.foldr_cons (a := c),ih (by simp) hw,addToWords,hc]

theorem words_spaces_append (ha : ∀ c ∈ a, isSpace c = true) : words (a ++ b) = words b := by
  rw [words,List.foldr_append,foldr_addToWords_spaces ha,words]

theorem words_append_spaces (hb : ∀ c ∈ b, isSpace c = true) : words (a ++ b) = words a := by
  have hempty : b.foldr addToWords (false, []) = (false, []) := by
    cases b with
    | nil => rfl
    | cons c b =>
      obtain ⟨hc,hb⟩ := List.forall_mem_cons.mp hb
      simp [addToWords,hc,foldr_addToWords_spaces hb]
  rw [words,List.foldr_append,hempty,words]

theorem words_strip (t : Text) : t.strip.words = t.words := by
  cases h : isBlank t with
  | true =>
    have hnil : t.strip = [] := List.isEmpty_iff.mp h
    rw [hnil,← List.append_nil t,words_spaces_append ((isBlank_iff t).mp h)]
  | false =>
    obtain ⟨a,b,-,-,ht,ha,hb,-⟩ := strip_parts h
    rw [congrArg words ht,words_append_spaces hb,words_spaces_append ha]

theorem words_append (hne : w ≠ []) (hw : ∀ c ∈ w, isSpace c = false) (hr : r.head?.all isSpace = true) :
    words (w ++ r) = w :: words r := by
  have hbehind : r.foldr addToWords (false, []) = (false, words r) := by
    cases r with
    | nil => rfl
    | cons c r =>
      have hc : isSpace c = true := by simpa using hr
      simp [words,addToWords,hc]
  rw [words,List.foldr_append,hbehind,foldr_addToWords_word hne hw]

def withFirstWord (t w : Text) : Text := t.leadingSpace ++ w ++ t.stripLeft.dropWhile fun c => !isSpace c

theorem words_withFirstWord (hne : w ≠ []) (hw : ∀ c ∈ w, isSpace c = false) :
    (t.withFirstWord w).words = w :: t.words.tail := by
  have hlead : ∀ c ∈ t.leadingSpace, isSpace c = true := List.all_eq_true.mp List.all_takeWhile
  have hrest : (t.stripLeft.dropWhile fun c => !isSpace c).head?.all isSpace = true := by
    cases h : t.stripLeft.dropWhile fun c => !isSpace c with
    | nil => rfl
    | cons c r =>
      have hc := List.head_dropWhile_not (l := t.stripLeft) (fun c => !isSpace c) (by simp [h])
      simpa [h] using hc
  rw [withFirstWord,List.append_assoc,words_spaces_append hlead,words_append hne hw hrest]
  refine congrArg _ ?_
  have hsplit : t.words = t.stripLeft.words := by
    rw [congrArg words (List.takeWhile_append_dropWhile (p := isSpace) (l := t)).symm]
    exact words_spaces_append hlead
  rw [hsplit]
  generalize hfirst : t.stripLeft.takeWhile (fun c => !isSpace c) = first
  have hparts : t.stripLeft = first ++ t.stripLeft.dropWhile fun c => !isSpace c := by
    rw [← hfirst,List.takeWhile_append_dropWhile]
  have hfirstWord : ∀ c ∈ first, isSpace c = false := by
    have hall := List.all_takeWhile (p := fun c => !isSpace c) (l := t.stripLeft)
    rw [hfirst] at hall
    simpa using hall
  cases hstart : t.stripLeft with
  | nil => rfl
  | cons c cs =>
    have hc := isSpace_of_stripLeft hstart
    have hne : first ≠ [] := by simp [← hfirst,hstart,hc]
    rw [← hstart,congrArg words hparts,words_append hne hfirstWord hrest,List.tail_cons]

/-! ### Words in lower case -/

def isLowerWord (w : Text) : Bool := !w.isEmpty && w.all isAsciiLower

theorem isAsciiLower_iff : isAsciiLower c = true ↔ 97 ≤ c.toNat ∧ c.toNat ≤ 122 := by
  simp [isAsciiLower,Char.le_def,UInt32.le_iff_toNat_le]

theorem lowerAscii_of_lower (hc : isAsciiLower c = true) : lowerAscii c = c := by
  have hn := isAsciiLower_iff.mp hc
  cases lowerAscii_cases c with
  | inl hup =>
    have := isAsciiUpper_iff.mp hup.1
    omega
  | inr hsame => exact hsame.2

theorem upperAscii_of_lower (hc : isAsciiLower c = true) :
    isAsciiUpper (upperAscii c) = true ∧ lowerAscii (upperAscii c) = c := by
  have hn := isAsciiLower_iff.mp hc
  have hto : (upperAscii c).toNat = c.toNat - 32 := by
    rw [upperAscii,if_pos hc,toNat_ofNat (.inl (by omega))]
  have hup : isAsciiUpper (upperAscii c) = true := isAsciiUpper_iff.mpr (by omega)
  refine ⟨hup,?_⟩
  rw [lowerAscii,if_pos hup,hto,Nat.sub_add_cancel (by omega),Char.ofNat_toNat]

theorem lowerAfter_ascii (before : Text) (h : ∀ c ∈ t, isAscii c = true) : lowerAfter before t = t.map lowerAscii := by
  induction t generalizing before with
  | nil => rfl
  | cons c t ih =>
    obtain ⟨hc,ht⟩ := List.forall_mem_cons.mp h
    have hsigma : c ≠ capitalSigma := by
      rintro rfl
      exact absurd hc (by decide)
    simp [lowerAfter,lowerIn,lowerChar,hsigma,hc,ih _ ht]

theorem isAscii_of_letter (h : isAsciiLetter c = true) : isAscii c = true := by
  rw [isAsciiLetter,Bool.or_eq_true,isAsciiLower_iff,isAsciiUpper_iff] at h
  rw [isAscii,decide_eq_true_eq]
  omega

theorem isSpace_of_letter (h : isAsciiLetter c = true) : isSpace c = false := by
  rw [isAsciiLetter,Bool.or_eq_true,isAsciiLower_iff,isAsciiUpper_iff] at h
  rw [Bool.eq_false_iff,ne_eq,isSpace_iff_of_ascii (by omega)]
  omega

/-- Such a word that is capitalized has letters only, and it is the same in lower case. -/
theorem capitalize_of_lowerWord (h : isLowerWord w = true) : w.capitalize ≠ [] ∧
    (∀ c ∈ w.capitalize, isAsciiLetter c = true) ∧ w.capitalize.lower = w := by
  rw [isLowerWord,Bool.and_eq_true] at h
  cases w with
  | nil => simp at h
  | cons c cs =>
    obtain ⟨hc,hcs⟩ := List.forall_mem_cons.mp (List.all_eq_true.mp h.2)
    have hletter : isAsciiLetter c = true := by simp [isAsciiLetter,hc]
    have hsame : cs.map lowerAscii = cs := (List.map_congr_left fun x hx => lowerAscii_of_lower (hcs x hx)).trans (List.map_id' cs)
    have hascii : ∀ x ∈ cs, isAscii x = true := fun x hx => isAscii_of_letter (by simp [isAsciiLetter,hcs x hx])
    obtain ⟨hup,hback⟩ := upperAscii_of_lower hc
    have hupLetter : isAsciiLetter (upperAscii c) = true := by simp [isAsciiLetter,hup]
    have hcap : capitalize (c :: cs) = upperAscii c :: cs := by
      rw [capitalize,lowerAfter_ascii [c] hascii,hsame]
      simp [titleChar,isAscii_of_letter hletter]
    rw [hcap]
    refine ⟨by simp,List.forall_mem_cons.mpr ⟨hupLetter,fun x hx => by simp [isAsciiLetter,hcs x hx]⟩,?_⟩
    rw [lower,lowerAfter_ascii [] (List.forall_mem_cons.mpr ⟨isAscii_of_letter hupLetter,hascii⟩),List.map_cons,hback,
      hsame]

/-! ### Common beginnings -/

theorem le_commonPrefixLength (h : p <+: w) : p.length ≤ commonPrefixLength w (p ++ r) := by
  obtain ⟨behind,rfl⟩ := h
  induction p with
  | nil => exact Nat.zero_le _
  | cons c p ih =>
    rw [List.cons_append,List.cons_append,commonPrefixLength,if_pos rfl]
    exact Nat.succ_le_succ ih

/-- Two texts part at a character: a text that goes along with one further than there leaves the other one there. -/
theorem commonPrefixLength_parting (hxy : x ≠ y) (h : p ++ [x] <+: w) :
    commonPrefixLength w (p ++ y :: t) < commonPrefixLength w (p ++ x :: r) := by
  have hlong : p.length + 1 ≤ commonPrefixLength w (p ++ x :: r) := by
    have hle := le_commonPrefixLength (r := r) h
    simpa using hle
  have hshort : commonPrefixLength w (p ++ y :: t) = p.length := by
    obtain ⟨behind,rfl⟩ := h
    clear hlong
    induction p with
    | nil => simp [commonPrefixLength,hxy]
    | cons c p ih =>
      rw [List.cons_append,List.cons_append,List.cons_append,commonPrefixLength,if_pos rfl,ih]
      rfl
  omega

/-- A text that goes along with neither further than there shares the same beginning with both. -/
theorem commonPrefixLength_together (hx : ¬p ++ [x] <+: w) (hy : ¬p ++ [y] <+: w) :
    commonPrefixLength w (p ++ x :: r) = commonPrefixLength w (p ++ y :: t) := by
  induction p generalizing w with
  | nil =>
    cases w with
    | nil => rfl
    | cons c w =>
      have hcx : c ≠ x := fun h => hx ⟨w,by rw [h]; rfl⟩
      have hcy : c ≠ y := fun h => hy ⟨w,by rw [h]; rfl⟩
      simp [commonPrefixLength,hcx,hcy]
  | cons d p ih =>
    cases w with
    | nil => rfl
    | cons c w =>
      rw [List.cons_append,List.cons_append,commonPrefixLength,commonPrefixLength]
      by_cases hcd : c = d
      · subst hcd
        rw [if_pos rfl,if_pos rfl,ih (fun h => hx (List.cons_prefix_cons.mpr ⟨rfl,h⟩))
          fun h => hy (List.cons_prefix_cons.mpr ⟨rfl,h⟩)]
      · rw [if_neg hcd,if_neg hcd]

end Text

end DocLint
