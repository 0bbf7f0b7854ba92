import DocLint.Proofs.Token.Mark

/-!
Lexemes are cut off the beginning of a text: a lexeme and the rest that its reader gives make up the
text again. A string opens with the letters of its mark and a quote, and it ends with something.
-/

set_option autoImplicit false

namespace DocLint.Lexeme

variable {t a b : Text} {q : Char}

def Cuts (r : Reader) : Prop := ∀ t a b, r t = some (a, b) → a ++ b = t

/-! ### Numbers -/

theorem digitsTail_append (isDigit : Char → Bool) (t : Text) :
    (digitsTail isDigit t).1 ++ (digitsTail isDigit t).2 = t := by
  fun_induction digitsTail isDigit t <;> simp_all

theorem digits_cuts : Cuts digits := by
  intro t a b h
  unfold digits at h
  split at h
  · rename_i d cs
    split at h
    · obtain ⟨rfl,rfl⟩ := Prod.mk.inj (Option.some.inj h)
      simp [digitsTail_append]
    · cases h
  · cases h

theorem exponent_append (t : Text) : (exponent t).1 ++ (exponent t).2 = t := by
  unfold exponent
  split
  · rename_i e cs
    split
    · cases cs with
      | nil => simp [digits]
      | cons s ds =>
        dsimp only
        by_cases hs : s = '+' ∨ s = '-'
        · simp only [hs,if_true]
          cases hd : digits ds with
          | none => simp
          | some found => simpa using digits_cuts _ _ _ hd
        · simp only [hs,if_false]
          cases hd : digits (s :: ds) with
          | none => simp
          | some found => simpa using digits_cuts _ _ _ hd
    · simp
  · simp

theorem getD_digits_append (t : Text) :
    ((digits t).getD ([], t)).1 ++ ((digits t).getD ([], t)).2 = t := by
  cases hd : digits t with
  | none => simp
  | some found => exact digits_cuts _ _ _ hd

theorem pointFloat_cuts : Cuts pointFloat := by
  intro t a b h
  unfold pointFloat at h
  split at h
  · cases h
  · split at h
    · rename_i hc
      split at h
      · rename_i fraction rest hd
        have hf := digits_cuts _ _ _ hd
        have he := exponent_append rest
        generalize exponent rest = found at h he
        obtain ⟨rfl,rfl⟩ := Prod.mk.inj (Option.some.inj h)
        rw [List.cons_append,List.cons_append,List.append_assoc,he,hf,hc]
      · cases h
    · split at h
      · rename_i whole p rest hd
        have hw := digits_cuts _ _ _ hd
        split at h
        · rename_i hp
          have hf := getD_digits_append rest
          generalize (digits rest).getD ([], rest) = found at h hf
          obtain ⟨fraction,rest'⟩ := found
          have he := exponent_append rest'
          dsimp only at h hf
          generalize exponent rest' = found at h he
          obtain ⟨rfl,rfl⟩ := Prod.mk.inj (Option.some.inj h)
          rw [List.append_assoc,List.append_assoc,List.cons_append,he,hf,← hp,hw]
        · cases h
      · cases h

theorem exponentFloat_cuts : Cuts exponentFloat := by
  intro t a b h
  unfold exponentFloat at h
  split at h
  · rename_i whole rest hd
    have hw := digits_cuts _ _ _ hd
    have he := exponent_append rest
    split at h
    · cases h
    · rename_i e rest' _ heq
      obtain ⟨rfl,rfl⟩ := Prod.mk.inj (Option.some.inj h)
      rw [heq] at he
      rw [List.append_assoc,he,hw]
  · cases h

theorem of_orElse {o : Option (Text × Text)} {f : Unit → Option (Text × Text)} {x : Text × Text}
    (h : o.orElse f = some x) : o = some x ∨ f () = some x := by
  cases o with
  | none => exact Or.inr h
  | some y => exact Or.inl h

theorem Cuts.orElse {r s : Reader} (hr : Cuts r) (hs : Cuts s) :
    Cuts fun t => (r t).orElse fun _ => s t := by
  intro t a b h
  rcases of_orElse h with h | h
  · exact hr t a b h
  · exact hs t a b h

theorem float_cuts : Cuts float := pointFloat_cuts.orElse exponentFloat_cuts

theorem append_of_marked {n rest : Text} {j : Char} {p : Prop} [Decidable p] (hn : n ++ j :: rest = t)
    (h : (if p then some (n ++ [j], rest) else none) = some (a, b)) : a ++ b = t := by
  split at h
  · obtain ⟨rfl,rfl⟩ := Prod.mk.inj (Option.some.inj h)
    simpa using hn
  · cases h

theorem imaginary_cuts : Cuts imaginary := by
  intro t a b h
  rcases of_orElse h with h | h
  · dsimp only at h
    split at h
    · rename_i n j rest hn
      exact append_of_marked (digits_cuts _ _ _ hn) h
    · cases h
  · dsimp only at h
    split at h
    · rename_i n j rest hn
      exact append_of_marked (float_cuts _ _ _ hn) h
    · cases h

theorem basedDigits_cuts {isDigit : Char → Bool} {mark : Char}
    (h : basedDigits isDigit mark t = some (a, b)) : a ++ b = '0' :: mark :: t := by
  have ht := digitsTail_append isDigit t
  unfold basedDigits at h
  split at h
  · cases h
  · rename_i ds rest _ heq
    obtain ⟨rfl,rfl⟩ := Prod.mk.inj (Option.some.inj h)
    rw [heq] at ht
    simp [← ht]

theorem based_cuts (h : based t = some (a, b)) : a ++ b = '0' :: t := by
  unfold based at h
  split at h
  · cases h
  · split at h
    · exact basedDigits_cuts h
    · split at h
      · exact basedDigits_cuts h
      · split at h
        · exact basedDigits_cuts h
        · cases h

theorem integer_cuts : Cuts integer := by
  intro t a b h
  unfold integer at h
  split at h
  · cases h
  · split at h
    · rename_i hd
      rw [hd]
      rcases of_orElse h with h | h
      · exact based_cuts h
      · obtain ⟨rfl,rfl⟩ := Prod.mk.inj (Option.some.inj h)
        simp [digitsTail_append]
    · exact digits_cuts _ _ _ h

theorem number_cuts : Cuts number := (imaginary_cuts.orElse float_cuts).orElse integer_cuts

/-! ### Strings -/

theorem oneOf_cuts (ws : List Text) : Cuts (oneOf ws) := by
  intro t a b h
  obtain ⟨w,hfind,heq⟩ := Option.map_eq_some_iff.mp h
  obtain ⟨rfl,rfl⟩ := Prod.mk.inj heq
  have hw := List.find?_some hfind
  exact List.prefix_iff_eq_append.mp (List.isPrefixOf_iff_prefix.mp hw)

theorem stringRest_cuts (closings : Bool → List Text) (broken : Bool → Char → Bool) (escaped : Bool) :
    Cuts (stringRest closings broken escaped) := by
  intro t
  induction t generalizing escaped with
  | nil => rintro _ _ ⟨⟩
  | cons x t ih =>
    intro a b h
    rcases of_orElse h with h | h
    · exact oneOf_cuts _ _ _ _ h
    · dsimp only at h
      split at h
      · cases h
      · obtain ⟨p,hp,⟨⟩⟩ := Option.map_eq_some_iff.mp h
        exact congrArg (x :: ·) (ih _ _ _ hp)

theorem string_cuts : Cuts string := by
  intro t a b h
  unfold string at h
  split at h
  · rename_i mark q rest hm
    obtain ⟨⟨body,rest'⟩,h',heq⟩ := Option.map_eq_some_iff.mp h
    obtain ⟨rfl,rfl⟩ := Prod.mk.inj heq
    rw [(literalMark_eq hm).1,← stringRest_cuts _ _ _ _ _ _ h']
    simp
  · cases h

theorem tripleQuote_eq {c : Char} {rest : Text} (h : tripleQuote? t = some (c, rest)) :
    t = c :: c :: c :: rest ∧ isQuote c = true := by
  unfold tripleQuote? at h
  split at h
  · split at h
    · rename_i hq
      obtain ⟨rfl,rfl⟩ := Prod.mk.inj (Option.some.inj h)
      obtain ⟨hq,rfl,rfl⟩ := hq
      exact ⟨rfl,hq⟩
    · cases h
  · cases h

theorem tripleOpening_cuts : Cuts tripleOpening := by
  intro t a b h
  unfold tripleOpening at h
  split at h
  · rename_i mark quoted hm
    obtain ⟨⟨c,rest⟩,h',heq⟩ := Option.map_eq_some_iff.mp h
    obtain ⟨rfl,rfl⟩ := Prod.mk.inj heq
    rw [(literalMark_eq hm).1,(tripleQuote_eq h').1]
    simp
  · cases h

/-- The end of a string is cut off too, and it is not empty. -/
theorem stringEnd_cuts {triple : Bool} (h : stringEnd q triple t = some (a, b)) :
    a ++ b = t ∧ a ≠ [] := by
  refine ⟨stringRest_cuts _ _ _ _ _ _ h,?_⟩
  cases t with
  | nil => cases h
  | cons x t =>
    rcases of_orElse h with h | h
    · obtain ⟨w,hfind,heq⟩ := Option.map_eq_some_iff.mp h
      obtain rfl := (Prod.mk.inj heq).1
      have hw := List.mem_singleton.mp (List.mem_of_find?_eq_some hfind)
      rw [hw]
      cases triple <;> simp
    · dsimp only at h
      split at h
      · cases h
      · obtain ⟨p,-,⟨⟩⟩ := Option.map_eq_some_iff.mp h
        exact List.cons_ne_nil _ _

/-! ### Other lexemes -/

theorem word_cuts : Cuts word := by
  intro t a b h
  unfold word at h
  split at h
  · cases h
  · obtain ⟨rfl,rfl⟩ := Prod.mk.inj (Option.some.inj h)
    exact List.takeWhile_append_dropWhile

theorem comment_cuts : Cuts comment := by
  intro t a b h
  unfold comment at h
  split at h
  · cases h
  · split at h
    · rename_i hc
      obtain ⟨rfl,rfl⟩ := Prod.mk.inj (Option.some.inj h)
      rw [hc]
      exact congrArg _ List.takeWhile_append_dropWhile
    · cases h

theorem continuation_cuts : Cuts continuation := by
  intro t a b h
  unfold continuation at h
  split at h
  · cases h
  · split at h
    · rename_i hc
      obtain ⟨p,hp,⟨⟩⟩ := Option.map_eq_some_iff.mp h
      rw [hc]
      exact congrArg _ (oneOf_cuts _ _ _ _ hp)
    · cases h

theorem next_cuts : Cuts next := by
  intro t a b h
  obtain ⟨r,hr,hcut⟩ := List.exists_of_findSome?_eq_some h
  have hall : ∀ r ∈ [continuation, comment, tripleOpening, number, lineEnd, operator, string, word],
      Cuts r := by
    simp only [List.forall_mem_cons,List.not_mem_nil,false_implies,implies_true,and_true]
    exact ⟨continuation_cuts,comment_cuts,tripleOpening_cuts,number_cuts,oneOf_cuts _,oneOf_cuts _,
      string_cuts,word_cuts⟩
  exact hall r hr t a b hcut

/-! ### Literals -/

def IsQuoted (t : Text) : Prop := ∃ mark q rest, t = mark ++ q :: rest ∧ isLiteralMark mark = true ∧
  isQuote q = true

theorem IsQuoted.append (h : IsQuoted a) (b : Text) : IsQuoted (a ++ b) := by
  obtain ⟨mark,q,rest,rfl,hm,hq⟩ := h
  exact ⟨mark,q,rest ++ b,by simp,hm,hq⟩

theorem isQuoted_of_literalMark {mark quoted : Text} (h : literalMark? t = some (mark, quoted)) :
    IsQuoted t := by
  obtain ⟨rfl,hm,q,rest,rfl,hq⟩ := literalMark_eq h
  exact ⟨mark,q,rest,rfl,hm,hq⟩

end DocLint.Lexeme
