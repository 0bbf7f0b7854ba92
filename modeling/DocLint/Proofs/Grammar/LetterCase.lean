import DocLint.Grammar.Accept
import DocLint.Proofs.Exports
import DocLint.Proofs.Token.Recased

/-!
The grammar does not know the letter before the quotes of a string in one case from the other if it comes to
this letter between two terminals: up to there it looks at nothing behind the place, and from there on the
case of the letter is lost.
-/

set_option autoImplicit false

namespace DocLint.Grammar

/-- What stands before a statement: a line end, a blank, a colon or a semicolon. -/
def breaks : Text := "\n\t\x0c :;".toList

/-- A statement may begin behind the text. -/
def endsApart (a : Text) : Bool := a.getLast?.all breaks.contains

/-- Reading comes to the place from which `n` characters are left, with at most blanks before it. -/
def comesTo [Resources] (n : Nat) : Nat → LexState → Bool → Text → Bool
  | 0, _, _, _ => false
  | fuel + 1, s, fresh, t =>
    decide (n ≤ t.length) && (!fresh && (t.dropWhile Lexeme.isBlank).length == n ||
      ((lexStep s fresh t).bind (·.next)).any fun (s, fresh, rest) => comesTo n fuel s fresh rest)

/-- The grammar comes to a place of a text as to a letter before the quotes of a string, and a statement may
begin there. -/
def opensStringAt [Resources] (source : Text) (k : Nat) : Bool :=
  let t := lineFeeds source
  let before := Text.unifyNewlines (source.take k)
  source[k + 1]?.any Lexeme.isQuote && endsApart before &&
    comesTo (t.length - before.length) (2 * t.length + 2) {} true t

section Apart

variable {a : Text} {x d : Char}

theorem endsApart_append (u : Text) : endsApart (u ++ x :: a) = endsApart (x :: a) := by
  rw [endsApart,List.getLast?_append_of_ne_nil _ (List.cons_ne_nil x a),endsApart]

theorem endsApart_suffix {a' : Text} (h : endsApart a = true) (hs : a' <:+ a) : endsApart a' = true := by
  obtain ⟨u,rfl⟩ := hs
  cases a' with
  | nil => rfl
  | cons x a' => rwa [endsApart_append] at h

theorem endsApart_tail (h : endsApart (x :: a) = true) : endsApart a = true :=
  endsApart_suffix h (List.suffix_cons x a)

/-- The first break of a text that ends with one. -/
theorem exists_break (h : endsApart (x :: a) = true) :
    ∃ w d r, x :: a = w ++ d :: r ∧ d ∈ breaks ∧ ∀ y ∈ w, y ∉ breaks := by
  induction a generalizing x with
  | nil => exact ⟨[],x,[],rfl,by simpa [endsApart] using h,by simp⟩
  | cons y a ih =>
    by_cases hx : x ∈ breaks
    · exact ⟨[],x,y :: a,rfl,hx,by simp⟩
    · obtain ⟨w,d,r,heq,hd,hw⟩ := ih (endsApart_tail h)
      exact ⟨x :: w,d,r,by rw [heq,List.cons_append],hd,List.forall_mem_cons.mpr ⟨hx,hw⟩⟩

theorem not_of_mem_breaks {p : Char → Bool} (hp : (breaks.all (!p ·)) = true) (hd : d ∈ breaks) : p d = false := by
  simpa using List.all_eq_true.mp hp d hd

theorem exists_notNameChar (h : endsApart (x :: a) = true) : ∃ y ∈ x :: a, isNameChar y = false := by
  obtain ⟨w,d,r,heq,hd,-⟩ := exists_break h
  exact ⟨d,by simp [heq],not_of_mem_breaks (by decide) hd⟩

theorem takeWhile_of_stops {p : Char → Bool} {b : Text} (h : ∃ y ∈ a, p y = false) :
    (a ++ b).takeWhile p = a.takeWhile p ∧ (a ++ b).dropWhile p = a.dropWhile p ++ b ∧ a.dropWhile p ≠ [] := by
  induction a with
  | nil => simp at h
  | cons x a ih =>
    by_cases hx : p x = true
    · have hy : ∃ y ∈ a, p y = false := by simpa [hx] using h
      simp [hx,ih hy]
    · simp [hx]

end Apart

/-! ### Numbers -/

section Numbers

variable {d : Char} {r : Text}

/-- A reader that takes no notice of what stands behind a text. -/
def Extends (e : Text) (f : Text → Option Text) : Prop := ∀ w, f (w ++ e) = (f w).map (· ++ e)

namespace Extends

theorem bind {e : Text} {f g : Text → Option Text} (hf : Extends e f) (hg : Extends e g) :
    Extends e fun t => f t >>= g := by
  intro w
  dsimp only
  rw [hf w]
  cases f w with
  | none => rfl
  | some t => exact hg t

/-- A reader that goes one of two ways, as the first character says. -/
theorem first {p : Char → Prop} [DecidablePred p] {f g : Text → Option Text} {h : Char → Text → Option Text}
    (hd : ¬ p d) (hh : ∀ x, Extends (d :: r) (h x)) (hg : Extends (d :: r) g)
    (hf : ∀ x t, f (x :: t) = if p x then h x t else g (x :: t)) (hnil : f [] = g []) : Extends (d :: r) f
  | [] => by
    rw [List.nil_append,hf,if_neg hd,hnil]
    exact hg []
  | x :: w => by
    rw [List.cons_append,hf,hf]
    split
    · exact hh x w
    · exact hg (x :: w)

end Extends

theorem digitsTail_extends {isDigit : Char → Bool} (hscore : d ≠ '_') (hd : isDigit d = false) (scored : Bool) :
    Extends (d :: r) (digitsTail isDigit scored) := by
  intro w
  induction w generalizing scored with
  | nil => cases scored <;> simp [digitsTail,hscore,hd]
  | cons x w ih =>
    simp only [List.cons_append,digitsTail]
    split
    · exact ih false
    · split
      · rfl
      · split
        · exact ih true
        · rfl

theorem zeros_extends (hscore : d ≠ '_') (hzero : d ≠ '0') (hd : Text.isAsciiDigit d = false) (scored : Bool) :
    Extends (d :: r) (zeros scored) := by
  intro w
  induction w generalizing scored with
  | nil => cases scored <;> simp [zeros,hscore,hzero,hd]
  | cons x w ih =>
    simp only [List.cons_append,zeros]
    split
    · exact ih false
    · split
      · split <;> rfl
      · split
        · exact ih true
        · rfl

theorem ended_extends (hd : d ∈ breaks) : Extends (d :: r) ended := by
  have hname : isNameChar d = false := not_of_mem_breaks (by decide) hd
  have hlast : (d == 'f' || d == 'n' || d == 's') = false :=
    not_of_mem_breaks (p := fun d => d == 'f' || d == 'n' || d == 's') (by decide) hd
  intro w
  have hends : endsNumber (w ++ d :: r) = endsNumber w := by
    cases w with
    | nil => simp [endsNumber,hname]
    | cons x w =>
      have hword : (x :: (w ++ d :: r)).takeWhile isNameChar = (x :: w).takeWhile isNameChar := by
        rw [← List.cons_append,List.takeWhile_append,List.takeWhile_cons_of_neg (a := d) (by simp [hname]),List.append_nil]
        split
        · rename_i hall
          exact ((List.takeWhile_prefix _).eq_of_length hall).symm
        · rfl
      have hnext : ((w ++ d :: r).head?.any fun d => d == 'f' || d == 'n' || d == 's') =
          w.head?.any fun d => d == 'f' || d == 'n' || d == 's' := by
        cases w with
        | nil => exact hlast
        | cons y w => rfl
      simp only [endsNumber,List.cons_append,hword,hnext]
  rw [ended,ended,hends]
  split <;> rfl

/-- Numbers are read up to a break. -/
theorem numberRest?_extends (hd : d ∈ breaks) (x : Char) (w : Text) :
    numberRest? (x :: w ++ d :: r) = (numberRest? (x :: w)).map (· ++ d :: r) := by
  have hplain {p : Char → Bool} (hp : (breaks.all (!p ·)) = true) : p d = false := not_of_mem_breaks hp hd
  have hne {x : Char} (hx : x ∉ breaks) : d ≠ x := fun h => hx (h ▸ hd)
  have hneither {x y : Char} (hx : x ∉ breaks) (hy : y ∉ breaks) : ¬ (d = x ∨ d = y) := by simp [hne hx,hne hy]
  have hdigit : ¬ Text.isAsciiDigit d = true := by simp [hplain (p := Text.isAsciiDigit) (by decide)]
  have hnone : Extends (d :: r) fun _ => none := fun _ => rfl
  have hended := ended_extends (r := r) hd
  have hcons (x : Char) : Extends (d :: r) fun t => ended (x :: t) := fun w => hended (x :: w)
  have hdecimal : Extends (d :: r) decimalTail := digitsTail_extends (hne (by decide)) (hplain (by decide)) false
  have hmark : Extends (d :: r) numberMark :=
    .first (hneither (by decide) (by decide)) (fun _ => hended) hended (fun _ _ => rfl) rfl
  have hsigned : Extends (d :: r) signedExponent :=
    .first hdigit (fun _ => hdecimal.bind hmark) hnone (fun _ _ => rfl) rfl
  have hunsigned (e : Char) : Extends (d :: r) (unsignedExponent e) :=
    .first hdigit (fun _ => hdecimal.bind hmark) (hcons e) (fun _ _ => rfl) rfl
  have hbehind (e : Char) : Extends (d :: r) (exponentBehind e) :=
    .first (hneither (by decide) (by decide)) (fun _ => hsigned) (hunsigned e) (fun _ _ => rfl) rfl
  have hexponent : Extends (d :: r) numberExponent :=
    .first (hneither (by decide) (by decide)) hbehind hmark (fun _ _ => rfl) rfl
  have hfraction : Extends (d :: r) numberFraction :=
    .first hdigit (fun _ => hdecimal.bind hexponent) hexponent (fun _ _ => rfl) rfl
  have hpoint : Extends (d :: r) numberPoint := .first (hne (x := '.') (by decide)) (fun _ => hfraction) hexponent (fun _ _ => rfl) rfl
  have hbased {isDigit : Char → Bool} (hd : isDigit d = false) : Extends (d :: r) (basedNumber isDigit) := by
    have hend : Extends (d :: r) basedEnd := .first hdigit (fun _ => hnone) hended (fun _ _ => rfl) rfl
    have hdigits : Extends (d :: r) (basedDigits isDigit) := .first (by simp [hd])
      (fun _ => (digitsTail_extends (hne (by decide)) hd false).bind hend) hnone (fun _ _ => rfl) rfl
    exact .first (hne (x := '_') (by decide)) (fun _ => hdigits) hdigits (fun _ _ => rfl) rfl
  have hzeroPoint (nonzero : Bool) : Extends (d :: r) (zeroPoint nonzero) := by
    have hwhole : Extends (d :: r) fun t => if nonzero then none else ended t := by
      cases nonzero
      · exact hended
      · exact hnone
    have hzeroMark : Extends (d :: r) (zeroMark nonzero) :=
      .first (hneither (by decide) (by decide)) (fun _ => hended) hwhole (fun _ _ => rfl) rfl
    have hzeroExponent : Extends (d :: r) (zeroExponent nonzero) :=
      .first (hneither (by decide) (by decide)) hbehind hzeroMark (fun _ _ => rfl) rfl
    exact .first (hne (x := '.') (by decide)) (fun _ => hfraction) hzeroExponent (fun _ _ => rfl) rfl
  have hbehindZeros : Extends (d :: r) behindZeros :=
    .first hdigit (fun _ => hdecimal.bind (hzeroPoint true)) (hzeroPoint false) (fun _ _ => rfl) rfl
  have hzeros := (zeros_extends (hne (by decide)) (hne (by decide)) (hplain (by decide)) false).bind hbehindZeros
  have hbinary : Extends (d :: r) fun t => t.head?.elim (some []) fun m =>
      if m = 'b' ∨ m = 'B' then basedNumber (fun c => c = '0' ∨ c = '1') t.tail else zeros false t >>= behindZeros :=
    .first (hneither (by decide) (by decide)) (fun _ => hbased (hplain (by decide))) hzeros (fun _ _ => rfl) rfl
  have hoctal : Extends (d :: r) fun t => t.head?.elim (some []) fun m =>
      if m = 'o' ∨ m = 'O' then basedNumber (fun c => '0' ≤ c ∧ c ≤ '7') t.tail
      else if m = 'b' ∨ m = 'B' then basedNumber (fun c => c = '0' ∨ c = '1') t.tail else zeros false t >>= behindZeros :=
    .first (hneither (by decide) (by decide)) (fun _ => hbased (hplain (by decide))) hbinary (fun _ _ => rfl) rfl
  have hzero : Extends (d :: r) behindZero :=
    .first (hneither (by decide) (by decide)) (fun _ => hbased (hplain (by decide))) hoctal (fun _ _ => rfl) rfl
  rw [List.cons_append,numberRest?,numberRest?]
  split
  · exact hfraction w
  · split
    · exact hzero w
    · exact hdecimal.bind hpoint w

/-- A number in front of a break, whatever stands behind this. -/
theorem numberRest?_facing {x : Char} {a : Text} (hx : x ∉ breaks) (ha : endsApart (x :: a) = true) :
    (∀ e, numberRest? (x :: a ++ e) = none) ∨
      ∃ a', endsApart a' = true ∧ ∀ e, numberRest? (x :: a ++ e) = some (a' ++ e) := by
  obtain ⟨w,d,r,heq,hd,-⟩ := exists_break ha
  cases w with
  | nil =>
    obtain ⟨rfl,-⟩ := List.cons.inj heq
    exact absurd hd hx
  | cons y w =>
    rw [heq] at ha ⊢
    have hnumber (e : Text) : numberRest? (y :: w ++ d :: r ++ e) =
        (numberRest? (y :: w)).map (· ++ d :: (r ++ e)) := by
      rw [List.append_assoc]
      exact numberRest?_extends hd y w
    cases hrest : numberRest? (y :: w) with
    | none => exact .inl fun e => by rw [hnumber,hrest,Option.map_none]
    | some a' =>
      refine .inr ⟨a' ++ d :: r,?_,fun e => by rw [hnumber,hrest,Option.map_some,List.append_assoc,List.cons_append]⟩
      exact endsApart_append a' ▸ endsApart_append (y :: w) ▸ ha

end Numbers

/-! ### Strings -/

/-- Two letters that may stand before the quotes of a string, and the text from these on. -/
structure Letters (c c' : Char) (b : Text) : Prop where
  first : c ∈ plainLetters
  second : c' ∈ plainLetters
  same : foldMark c' = foldMark c
  quoted : ∃ q rest, b = q :: rest ∧ Lexeme.isQuote q = true

variable {c c' : Char} {b : Text}

theorem Letters.ne (h : Letters c c' b) {x : Char} (hx : x ∉ plainLetters) : c ≠ x ∧ c' ≠ x :=
  ⟨fun heq => hx (heq ▸ h.first),fun heq => hx (heq ▸ h.second)⟩

theorem Letters.folded_eq (h : Letters c c' b) (a : Text) : Text.folded (a ++ c' :: b) = Text.folded (a ++ c :: b) := by
  simp [h.same]

section Strings

variable {α β : Type} {q x : Char} {a : Text}

/-- Reading leaves the same before either of the letters, or with the first one it fails or passes by. -/
inductive Keeps (c c' : Char) (b : Text) : Option (α × Text) → Option (α × Text) → Prop
  | kept {x : α} {a : Text} (h : endsApart a = true) : Keeps c c' b (some (x, a ++ c :: b)) (some (x, a ++ c' :: b))
  | failed {o' : Option (α × Text)} : Keeps c c' b none o'
  | passed {x : α} {t : Text} {o' : Option (α × Text)} (h : t.length ≤ b.length) : Keeps c c' b (some (x, t)) o'

theorem Keeps.map {f : α → β} {o o' : Option (α × Text)} (h : Keeps c c' b o o') :
    Keeps c c' b (o.map fun p => (f p.1, p.2)) (o'.map fun p => (f p.1, p.2)) := by
  cases h with
  | kept h => exact .kept h
  | failed => exact .failed
  | passed h => exact .passed h

theorem quoted?_cuts : Lexeme.Cuts quoted? := by
  intro t v rest h
  unfold quoted? at h
  split at h
  · rename_i q opened htriple
    obtain ⟨p,hp,⟨⟩⟩ := Option.map_eq_some_iff.mp h
    rw [(Lexeme.tripleQuote_eq htriple).1]
    exact congrArg (fun t => q :: q :: q :: t) (Lexeme.stringRest_cuts _ _ _ _ _ _ hp)
  · rename_i q opened _
    obtain ⟨p,hp,⟨⟩⟩ := Option.map_eq_some_iff.mp h
    exact congrArg (q :: ·) (Lexeme.stringRest_cuts _ _ _ _ _ _ hp)
  · cases h

theorem quoted?_folded (hq : Lexeme.isQuote q = true) (t : Text) : quoted? (Text.folded (q :: t)) =
    (quoted? (q :: t)).map fun p => (p.1.folded, p.2.folded) := by
  have hx := Lexeme.not_mem_of_isQuote hq
  have hrest (w : Text) (f : Bool → Char → Bool) (hw : ∀ x ∈ w, x ∉ plainLetters)
      (hf : ∀ escaped c, f escaped (foldMark c) = f escaped c) (t : Text) :=
    @Lexeme.stringRest_folds (fun escaped => if escaped then [] else [w]) f
      (by rintro (_ | _) <;> simp; exact hw) hf false t
  unfold quoted?
  rw [Lexeme.tripleQuote?_folded]
  cases htriple : Lexeme.tripleQuote? (q :: t) with
  | some p =>
    have hp : p.1 ∉ plainLetters := Lexeme.not_mem_of_isQuote (Lexeme.tripleQuote_eq htriple).2
    simp only [Option.map_some,hrest [p.1, p.1, p.1] (fun _ _ => false) (by simp [hp]) (fun _ _ => rfl) p.2]
    cases Lexeme.stringRest _ _ false p.2 <;> simp [foldMark_of_not_mem hp]
  | none =>
    simp only [Option.map_none,Text.folded_cons,foldMark_of_not_mem hx]
    rw [hrest [q] _ (by simp [hx]) (fun escaped => foldMark_congr (by decide +revert) (by decide +revert)) t]
    cases Lexeme.stringRest _ _ false t <;> simp [foldMark_of_not_mem hx]

/-- Where a string ends does not depend on the case of the letter, so it ends before both or behind the first. -/
theorem quoted?_keeps (h : Letters c c' b) (hq : Lexeme.isQuote q = true) (ha : endsApart (q :: a) = true) :
    Keeps c c' b (quoted? (q :: a ++ c :: b)) (quoted? (q :: a ++ c' :: b)) := by
  have hfolded : (quoted? (q :: a ++ c' :: b)).map (fun p => (p.1.folded, p.2.folded)) =
      (quoted? (q :: a ++ c :: b)).map fun p => (p.1.folded, p.2.folded) := by
    rw [List.cons_append,List.cons_append,← quoted?_folded hq,← quoted?_folded hq,Text.folded_cons,h.folded_eq,
      ← Text.folded_cons]
  cases ho : quoted? (q :: a ++ c :: b) with
  | none => exact .failed
  | some p =>
    obtain ⟨v,rest⟩ := p
    by_cases hle : rest.length ≤ b.length
    · exact .passed hle
    · rw [ho] at hfolded
      obtain ⟨⟨v',rest'⟩,ho',heq⟩ := Option.map_eq_some_iff.mp hfolded
      have hcut := quoted?_cuts _ _ _ ho
      have hcut' := quoted?_cuts _ _ _ ho'
      have hlength : v'.length = v.length := by
        rw [← Text.folded_length,(Prod.mk.inj heq).1,Text.folded_length]
      obtain ⟨e,he⟩ : v <+: q :: a := by
        refine List.prefix_of_prefix_length_le (hcut ▸ List.prefix_append v rest) (List.prefix_append _ _) ?_
        have := congrArg List.length hcut
        simp only [List.length_append,List.length_cons] at this ⊢
        omega
      rw [← he,List.append_assoc] at hcut hcut'
      obtain ⟨rfl,rfl⟩ := List.append_inj hcut' hlength
      rw [ho',List.append_cancel_left hcut]
      exact .kept (endsApart_suffix ha (he ▸ List.suffix_append _ _))

theorem literalMark?_none (h : Letters c c' b) (a : Text) (hnone : Lexeme.literalMark? (a ++ c :: b) = none) :
    Lexeme.literalMark? (a ++ c' :: b) = none := by
  have hfolds := Lexeme.literalMark?_folds (a ++ c' :: b)
  rw [h.folded_eq,Lexeme.literalMark?_folds,hnone] at hfolds
  exact Option.map_eq_none_iff.mp hfolds.symm

/-- A mark and its quote stand before the letters altogether, since no name runs up to these. -/
theorem literalMark?_some (h : Letters c c' b) {mark opened : Text} (ha : endsApart (x :: a) = true)
    (hmark : Lexeme.literalMark? (x :: a ++ c :: b) = some (mark, opened)) :
    ∃ q a', Lexeme.isQuote q = true ∧ x :: a = mark ++ q :: a' ∧ opened = q :: a' ++ c :: b ∧
      Lexeme.literalMark? (x :: a ++ c' :: b) = some (mark, q :: a' ++ c' :: b) := by
  obtain ⟨heq,hletters,q,rest,rfl,hq⟩ := Lexeme.literalMark_eq hmark
  rcases List.append_eq_append_iff.mp heq with ⟨e,rfl,-⟩ | ⟨e,he,hrest⟩
  · obtain ⟨y,hy,hname⟩ := exists_notNameChar ha
    have hall : (Lexeme.markLetters.all isNameChar) = true := by decide
    rw [List.all_eq_true.mp hall y (Lexeme.markLetter_of_mem hletters (List.mem_append_left _ hy))] at hname
    cases hname
  · cases e with
    | nil =>
      obtain ⟨rfl,-⟩ := List.cons.inj hrest
      exact absurd h.first (Lexeme.not_mem_of_isQuote hq)
    | cons y a' =>
      obtain ⟨rfl,rfl⟩ := List.cons.inj hrest
      refine ⟨q,a',hq,he,rfl,?_⟩
      rw [he,List.append_assoc]
      exact Lexeme.literalMark_append hletters hq

theorem string?_keeps (h : Letters c c' b) (ha : endsApart (x :: a) = true) :
    Keeps c c' b (string? (x :: a ++ c :: b)) (string? (x :: a ++ c' :: b)) := by
  have hstring {t mark opened : Text} (hm : Lexeme.literalMark? t = some (mark, opened)) :
      string? t = (quoted? opened).map fun p => (mark.map Text.lowerAscii ++ p.1, p.2) := by
    unfold string?
    rw [hm]
    cases hq : quoted? opened <;> simp [hq]
  cases hmark : Lexeme.literalMark? (x :: a ++ c :: b) with
  | none =>
    rw [show string? (x :: a ++ c :: b) = none by rw [string?,hmark]; rfl]
    exact .failed
  | some p =>
    obtain ⟨mark,opened⟩ := p
    obtain ⟨q,a',hq,he,rfl,hmark'⟩ := literalMark?_some h ha hmark
    rw [hstring hmark,hstring hmark']
    exact (quoted?_keeps h hq (endsApart_suffix ha (he ▸ List.suffix_append _ _))).map

end Strings

/-! ### Steps -/

section Steps

variable {x : Char} {a : Text}

theorem prefix_of_not_mem {w : Text} (hw : c ∉ w) (h : w <+: a ++ c :: b) : w <+: a := by
  rcases List.prefix_or_prefix_of_prefix h (List.prefix_append a (c :: b)) with hle | ⟨e,rfl⟩
  · exact hle
  · cases e with
    | nil => simp
    | cons y e =>
      obtain ⟨rest,hrest⟩ := (List.prefix_append_right_inj a).mp h
      obtain ⟨rfl,-⟩ := List.cons.inj hrest
      exact absurd (by simp) hw

theorem operators_plain : ∀ w ∈ operators, ∀ y ∈ w, y ∉ plainLetters := not_mem_of_words (by decide)

theorem number_keeps {α : Type} {f : Text → α} (hx : x ∉ breaks) (ha : endsApart (x :: a) = true) :
    Keeps c c' b
      ((numberRest? (x :: a ++ c :: b)).map fun e => (f ((x :: a ++ c :: b).take ((x :: a ++ c :: b).length - e.length)), e))
      ((numberRest? (x :: a ++ c' :: b)).map fun e =>
        (f ((x :: a ++ c' :: b).take ((x :: a ++ c' :: b).length - e.length)), e)) := by
  rcases numberRest?_facing hx ha with hfails | ⟨e,he,hnumber⟩
  · rw [hfails]
    exact .failed
  · have htake (c : Char) : (x :: a ++ c :: b).take ((x :: a ++ c :: b).length - (e ++ c :: b).length) =
        (x :: a).take ((x :: a).length - e.length) := by
      rw [List.take_append_of_le_length]
      · simp only [List.length_append,List.length_cons]
        congr 1
        omega
      · simp only [List.length_append,List.length_cons]
        omega
    rw [hnumber,hnumber]
    simp only [Option.map_some,htake]
    exact .kept he

theorem drop_operator {op : Text} (hc : c ∈ plainLetters) (hop : op ∈ operators) (hbegins : op <+: a ++ c :: b) (e : Char) :
    (a ++ e :: b).drop op.length = a.drop op.length ++ e :: b := by
  have hplain : c ∉ op := fun hmem => operators_plain op hop c hmem hc
  rw [List.drop_append_of_le_length (prefix_of_not_mem hplain hbegins).length_le]

theorem terminalAt_keeps [Resources] (h : Letters c c' b) (s : LexState) (ha : endsApart (x :: a) = true) :
    Keeps c c' b (terminalAt s (x :: a ++ c :: b)) (terminalAt s (x :: a ++ c' :: b)) := by
  have hstring := string?_keeps h ha
  unfold terminalAt
  cases ho : string? (x :: a ++ c :: b) with
  | some p =>
    rw [ho] at hstring
    revert hstring
    generalize string? (x :: a ++ c' :: b) = o'
    intro hstring
    cases hstring with
    | kept hkept =>
      dsimp only
      split
      · exact .kept hkept
      · exact .failed
    | passed hpassed =>
      dsimp only
      split
      · exact .passed hpassed
      · exact .failed
  | none =>
    cases hmark : Lexeme.literalMark? (x :: a ++ c :: b) with
    | some p => exact .failed
    | none =>
      have hmark' := literalMark?_none h (x :: a) hmark
      have ho' : string? (x :: a ++ c' :: b) = none := by
        rw [string?,hmark']
        rfl
      have hstops := exists_notNameChar ha
      have hword (c : Char) := takeWhile_of_stops (p := isNameChar) (b := c :: b) hstops
      have hdigit : (a ++ c :: b).head?.any Text.isAsciiDigit = (a ++ c' :: b).head?.any Text.isAsciiDigit := by
        have hnone {c : Char} (hc : c ∈ plainLetters) : Text.isAsciiDigit c = false := by
          simpa using of_mem_plainLetters (p := (!Text.isAsciiDigit ·)) (by decide) hc
        cases a with
        | nil => simp [hnone h.first,hnone h.second]
        | cons y a => rfl
      have hfind : operators.find? (·.isPrefixOf (x :: a ++ c' :: b)) =
          operators.find? (·.isPrefixOf (x :: a ++ c :: b)) := by
        rw [← Lexeme.find_isPrefixOf_folded operators_plain,h.folded_eq,Lexeme.find_isPrefixOf_folded operators_plain]
      rw [ho']
      simp only [List.cons_append] at hmark' hword hfind ⊢
      rw [hmark']
      simp only [Option.isSome_none,Bool.false_eq_true,if_false,hword,hdigit,hfind]
      split
      · split
        · exact .kept (endsApart_suffix ha (List.dropWhile_suffix _))
        · exact .failed
      · split
        · rename_i hopens
          have hbreak : x ∉ breaks := fun hx => by
            have hnone : (Text.isAsciiDigit x || x == '.') = false :=
              not_of_mem_breaks (p := fun x => Text.isAsciiDigit x || x == '.') (by decide) hx
            simp_all
          exact number_keeps (f := fun value => (Terminal.mk .number value s.line, s)) hbreak ha
        · cases hop : operators.find? (·.isPrefixOf (x :: (a ++ c :: b))) with
          | none => exact .failed
          | some op =>
            have hfound := List.find?_some hop
            have hdrop := drop_operator (a := x :: a) h.first (List.mem_of_find?_eq_some hop)
              (List.isPrefixOf_iff_prefix.mp hfound)
            simp only [List.cons_append] at hdrop
            cases trackBracket s x with
            | none => exact .failed
            | some s' =>
              simp only [Option.map_some,hdrop]
              exact .kept (endsApart_suffix ha (List.drop_suffix _ _))

/-- A step leaves the same before either of the letters, or with the first one it leaves less than that. -/
inductive Goes (c c' : Char) (b : Text) : Option Lexed → Option Lexed → Prop
  | on {ts : List Terminal} {s : LexState} {fresh : Bool} {a : Text} (h : endsApart a = true) :
      Goes c c' b (some ⟨ts, some (s, fresh, a ++ c :: b)⟩) (some ⟨ts, some (s, fresh, a ++ c' :: b)⟩)
  | off {l l' : Option Lexed} (h : ∀ x ∈ l.bind Lexed.next, x.2.2.length ≤ b.length) : Goes c c' b l l'

theorem goes_comment (h : Letters c c' b) (ha : endsApart a = true) (s : LexState) (fresh : Bool) :
    Goes c c' b (some { next := some (s, fresh, (a ++ c :: b).dropWhile (· ≠ '\n')) })
      (some { next := some (s, fresh, (a ++ c' :: b).dropWhile (· ≠ '\n')) }) := by
  by_cases hline : '\n' ∈ a
  · have hstops (c : Char) := (takeWhile_of_stops (a := a) (b := c :: b) (p := (· ≠ '\n')) ⟨_,hline,by simp⟩).2.1
    rw [hstops,hstops]
    exact .on (endsApart_suffix ha (List.dropWhile_suffix _))
  · have hne := (h.ne (x := '\n') (by decide)).1
    have hall : ∀ y ∈ a, decide (y ≠ '\n') = true := by
      intro y hy
      rw [decide_eq_true_eq]
      rintro rfl
      exact hline hy
    have hdrop : (a ++ c :: b).dropWhile (· ≠ '\n') = b.dropWhile (· ≠ '\n') := by
      rw [List.dropWhile_append_of_pos hall,List.dropWhile_cons_of_pos (by simpa using hne)]
    refine .off fun x hx => ?_
    cases hx
    dsimp only
    rw [hdrop]
    exact (List.dropWhile_suffix _).length_le

theorem innerStep_goes [Resources] (h : Letters c c' b) (s : LexState) (ha : endsApart (x :: a) = true) :
    Goes c c' b (innerStep s (x :: a ++ c :: b)) (innerStep s (x :: a ++ c' :: b)) := by
  have htail := endsApart_tail ha
  have hhead {c : Char} (hc : c ≠ '\n') : (a ++ c :: b).head? = some '\n' ↔ a.head? = some '\n' := by
    cases a <;> simp [hc]
  have hne := h.ne (x := '\n') (by decide)
  have hkeeps := terminalAt_keeps h s ha
  simp only [List.cons_append,innerStep,hhead hne.1,hhead hne.2] at hkeeps ⊢
  split
  · exact goes_comment h htail s false
  · split
    · exact .on htail
    · split
      · rename_i hjoined
        cases a with
        | nil => cases hjoined.2
        | cons y a =>
          have hmore (c : Char) : ¬ (y :: a ++ c :: b).tail.isEmpty = true := by simp
          rw [if_neg (hmore c),if_neg (hmore c')]
          exact .on (endsApart_tail htail)
      · revert hkeeps
        generalize terminalAt s (x :: (a ++ c :: b)) = o
        generalize terminalAt s (x :: (a ++ c' :: b)) = o'
        intro hkeeps
        cases hkeeps with
        | kept h => exact .on h
        | failed => exact .off (by simp)
        | passed h => exact .off (by simpa using h)

theorem lineStep_goes (h : Letters c c' b) (s : LexState) (indent : Indent) (ha : endsApart a = true) :
    Goes c c' b (lineStep s indent (a ++ c :: b)) (lineStep s indent (a ++ c' :: b)) := by
  have henter {a : Text} (ha : endsApart a = true) :
      Goes c c' b (enterLine s indent (a ++ c :: b)) (enterLine s indent (a ++ c' :: b)) := by
    unfold enterLine
    split
    · dsimp only
      cases indentTerminals s _ _ with
      | none => exact .off (by simp)
      | some p => exact .on ha
    · exact .on ha
  cases a with
  | nil =>
    simp only [List.nil_append,lineStep,h.ne (x := '\n') (by decide),h.ne (x := '#') (by decide),if_false]
    exact henter (a := []) rfl
  | cons x a =>
    simp only [List.cons_append,lineStep]
    split
    · exact .on (endsApart_tail ha)
    · split
      · exact goes_comment h (endsApart_tail ha) s true
      · exact henter (a := x :: a) ha

theorem measure_cons (i : Indent) (n : Nat) (x : Char) (t : Text) : measure i n (x :: t) =
    if x = ' ' then measure { i with width := i.width + 1, narrow := i.narrow + 1 } n t
    else if x = '\t' then measure { i with width := (i.width / 8 + 1) * 8, narrow := i.narrow + 1 } n t
    else if x = Char.ofNat 12 then measure { i with width := 0, narrow := 0 } n t
    else if x = '\\' then
      if t.head? = some '\n' ∧ t.tail ≠ [] then
        measure { i with joined := if i.joined = 0 then i.width else i.joined } (n + 1) t.tail
      else none
    else some (i, n, x :: t) := by
  cases t <;> simp [measure]

theorem measure_facing (h : Letters c c' b) : (a : Text) → endsApart a = true → (i : Indent) → (n : Nat) →
    measure i n (a ++ c :: b) = none ∨ ∃ i' n' a', endsApart a' = true ∧
      measure i n (a ++ c :: b) = some (i', n', a' ++ c :: b) ∧
      measure i n (a ++ c' :: b) = some (i', n', a' ++ c' :: b)
  | [], _, i, n => by
    have hletter {c : Char} (hc : c ∈ plainLetters) : measure i n (c :: b) = some (i, n, c :: b) := by
      have hne {x : Char} (hx : x ∉ plainLetters) : c ≠ x := fun h => hx (h ▸ hc)
      rw [measure_cons,if_neg (hne (by decide)),if_neg (hne (by decide)),if_neg (hne (by decide)),
        if_neg (hne (by decide))]
    exact .inr ⟨i,n,[],rfl,hletter h.first,hletter h.second⟩
  | x :: a, ha, i, n => by
    have htail := endsApart_tail ha
    simp only [List.cons_append,measure_cons i n x]
    split
    · exact measure_facing h a htail _ _
    · split
      · exact measure_facing h a htail _ _
      · split
        · exact measure_facing h a htail _ _
        · split
          · cases a with
            | nil => exact .inl (if_neg fun hj => (h.ne (by decide)).1 (Option.some.inj hj.1))
            | cons y a =>
              simp only [List.cons_append,List.head?_cons,List.tail_cons,Option.some.injEq,ne_eq,List.append_eq_nil_iff,
                List.cons_ne_nil,and_false,not_false_eq_true,and_true]
              split
              · exact measure_facing h a (endsApart_tail htail) _ _
              · exact .inl rfl
          · exact .inr ⟨i,n,x :: a,ha,rfl,rfl⟩

/-- A step at the beginning of a line, or before something other than blanks. -/
theorem lexStep_goes [Resources] (h : Letters c c' b) (s : LexState) (fresh : Bool) (ha : endsApart a = true)
    (hblank : fresh = true ∨ ∃ y ∈ a, Lexeme.isBlank y = false) :
    Goes c c' b (lexStep s fresh (a ++ c :: b)) (lexStep s fresh (a ++ c' :: b)) := by
  cases fresh with
  | true =>
    rw [lexStep,lexStep,if_pos rfl,if_pos rfl]
    rcases measure_facing h a ha {} 0 with hnone | ⟨i,n,a',ha',hi,hi'⟩
    · rw [hnone]
      exact .off (by simp)
    · rw [hi,hi']
      exact lineStep_goes h _ i ha'
  | false =>
    have hstops : ∃ y ∈ a, Lexeme.isBlank y = false := by simpa using hblank
    have hdrop (c : Char) := (takeWhile_of_stops (b := c :: b) hstops).2
    rw [lexStep,lexStep,if_neg (by decide),if_neg (by decide),(hdrop c).1,(hdrop c').1]
    cases hbody : a.dropWhile Lexeme.isBlank with
    | nil => exact absurd hbody (hdrop c).2
    | cons y a' => exact innerStep_goes h s (endsApart_suffix ha (hbody ▸ List.dropWhile_suffix _))

/-! ### Runs -/

theorem terminalAt_letter [Resources] (h : Letters c c' b) (s : LexState) :
    terminalAt s (c' :: b) = terminalAt s (c :: b) := by
  obtain ⟨q,rest,rfl,hq⟩ := h.quoted
  have hlower : Text.lowerAscii c' = Text.lowerAscii c := by
    have hfold := foldMark_congr (p := Text.lowerAscii) (by decide) (by decide)
    rw [← hfold c',h.same,hfold]
  have hstring {c : Char} (hc : c ∈ plainLetters) : string? (c :: q :: rest) =
      (quoted? (q :: rest)).map fun p => (Text.lowerAscii c :: p.1, p.2) := by
    unfold string?
    rw [literalMark?_letter hc hq]
    cases hquoted : quoted? (q :: rest) <;> simp [hquoted]
  unfold terminalAt
  rw [hstring h.first,hstring h.second,hlower]
  cases quoted? (q :: rest) with
  | some p => rfl
  | none =>
    dsimp only
    rw [literalMark?_letter h.first hq,literalMark?_letter h.second hq]
    rfl

theorem lexStep_blanks [Resources] (h : Letters c c' b) (s : LexState) (hblank : ∀ y ∈ a, Lexeme.isBlank y = true) :
    lexStep s false (a ++ c' :: b) = lexStep s false (a ++ c :: b) := by
  have hletter {c : Char} (hc : c ∈ plainLetters) : innerStep s ((a ++ c :: b).dropWhile Lexeme.isBlank) =
      (terminalAt s (c :: b)).map fun p => { terminals := [p.1.1], next := some (p.1.2, false, p.2) } := by
    have hne {x : Char} (hx : x ∉ plainLetters) : c ≠ x := fun h => hx (h ▸ hc)
    have hkept := of_mem_plainLetters (p := (!Lexeme.isBlank ·)) (by decide) hc
    rw [List.dropWhile_append_of_pos hblank,List.dropWhile_cons_of_neg (by simpa using hkept),innerStep,
      if_neg (hne (by decide)),if_neg (hne (by decide)),if_neg fun hj => hne (by decide) hj.1]
  rw [lexStep,lexStep,if_neg (by decide),if_neg (by decide),hletter h.first,hletter h.second,terminalAt_letter h]

/-- The terminals are the same with either of the letters, if reading comes to the first one. -/
theorem terminalsFrom_letter [Resources] (h : Letters c c' b) {fuel : Nat} {s : LexState} {fresh : Bool}
    (ha : endsApart a = true) (hcomes : comesTo (b.length + 1) fuel s fresh (a ++ c :: b) = true) (fuel' : Nat)
    (done : List Terminal) :
    terminalsFrom fuel' s fresh done (a ++ c' :: b) = terminalsFrom fuel' s fresh done (a ++ c :: b) := by
  induction fuel generalizing s fresh a fuel' done with
  | zero => cases hcomes
  | succ fuel ih =>
    cases fuel' with
    | zero => rfl
    | succ fuel' =>
      rw [terminalsFrom,terminalsFrom]
      by_cases hblank : fresh = true ∨ ∃ y ∈ a, Lexeme.isBlank y = false
      · have hgoes := lexStep_goes h s fresh ha hblank
        have hnext : ((lexStep s fresh (a ++ c :: b)).bind Lexed.next).any
            (fun x => comesTo (b.length + 1) fuel x.1 x.2.1 x.2.2) = true := by
          rw [comesTo,Bool.and_eq_true,Bool.or_eq_true,Bool.and_eq_true] at hcomes
          rcases hcomes.2 with ⟨hfresh,hlength⟩ | hnext
          · have hfresh : fresh = false := by simpa using hfresh
            have hstops : ∃ y ∈ a, Lexeme.isBlank y = false := by simpa [hfresh] using hblank
            obtain ⟨-,hdrop,hne⟩ := takeWhile_of_stops (b := c :: b) hstops
            rw [hdrop,beq_iff_eq,List.length_append,List.length_cons] at hlength
            exact absurd (List.length_eq_zero_iff.mp (by omega)) hne
          · exact hnext
        revert hgoes hnext
        generalize lexStep s fresh (a ++ c :: b) = l
        generalize lexStep s fresh (a ++ c' :: b) = l'
        intro hgoes hnext
        cases hgoes with
        | on ha' => exact ih ha' hnext fuel' _
        | off hoff =>
          obtain ⟨x,hx,hcomes⟩ := (Option.any_eq_true _ _).mp hnext
          have hle := hoff x hx
          cases fuel with
          | zero => cases hcomes
          | succ fuel =>
            rw [comesTo,Bool.and_eq_true,decide_eq_true_eq] at hcomes
            omega
      · have hfresh : fresh = false := by simpa using fun hf => hblank (.inl hf)
        subst hfresh
        have hall : ∀ y ∈ a, Lexeme.isBlank y = true := by simpa using hblank
        rw [lexStep_blanks h s hall]

end Steps

section Source

variable {q : Char} {a rest source : Text} {k : Nat}

theorem unifyNewlines_letter (hc : c ∈ plainLetters) (hq : Lexeme.isQuote q = true) :
    Text.unifyNewlines (c :: q :: rest) = c :: q :: Text.unifyNewlines rest := by
  have hline {c : Char} {t : Text} (hr : c ≠ '\r') : Text.unifyNewlines (c :: t) = c :: Text.unifyNewlines t := by
    rw [Text.unifyNewlines.eq_3 _ _ fun _ h => absurd h hr,if_neg hr]
  have hcr : c ≠ '\r' := by
    rintro rfl
    exact absurd hc (by decide)
  have hqr : q ≠ '\r' := by
    rintro rfl
    exact absurd hq (by decide)
  rw [hline hcr,hline hqr]

theorem lineFeeds_letter (hc : c ∈ plainLetters) (hq : Lexeme.isQuote q = true) (a rest : Text) :
    ∃ b, Letters c (otherCase c) b ∧ lineFeeds (a ++ c :: q :: rest) = Text.unifyNewlines a ++ c :: b ∧
      lineFeeds (a ++ otherCase c :: q :: rest) = Text.unifyNewlines a ++ otherCase c :: b := by
  have hunify {c : Char} (hc : c ∈ plainLetters) : Text.unifyNewlines (a ++ c :: q :: rest) =
      Text.unifyNewlines a ++ c :: q :: Text.unifyNewlines rest := by
    have hne : c ≠ '\n' := by
      rintro rfl
      exact absurd hc (by decide)
    rw [Text.unifyNewlines_append (by simpa using hne),unifyNewlines_letter hc hq]
  have hlast (c : Char) : (Text.unifyNewlines a ++ c :: q :: Text.unifyNewlines rest).getLast? =
      (q :: Text.unifyNewlines rest).getLast? := by
    simp [List.getLast?_append,List.getLast?_cons]
  have hends : "\r\n".toList.isSuffixOf (a ++ otherCase c :: q :: rest) =
      "\r\n".toList.isSuffixOf (a ++ c :: q :: rest) := by
    have hplain : ∀ w ∈ ["\r\n".toList], ∀ x ∈ w, x ∉ plainLetters := not_mem_of_words (by decide)
    have hfolded : Text.folded (a ++ otherCase c :: q :: rest) = Text.folded (a ++ c :: q :: rest) := by
      simp [foldMark_otherCase]
    rw [← Text.isSuffixOf_folded (hplain _ List.mem_cons_self),hfolded,
      Text.isSuffixOf_folded (hplain _ List.mem_cons_self)]
  refine ⟨q :: Text.unifyNewlines rest ++ if "\r\n".toList.isSuffixOf (a ++ c :: q :: rest) ||
    (q :: Text.unifyNewlines rest).getLast? ≠ some '\n' then ['\n'] else [],
    ⟨hc,otherCase_mem hc,foldMark_otherCase c,q,_,rfl,hq⟩,?_,?_⟩
  · simp only [lineFeeds,hunify hc,hlast]
    split <;> simp
  · simp only [lineFeeds,hunify (otherCase_mem hc),hlast,hends]
    split <;> simp

theorem terminals?_recased [Resources] (hk : source[k]? = some c) (hc : c ∈ plainLetters)
    (hopens : opensStringAt source k = true) : terminals? (source.recased k) = terminals? source := by
  rw [opensStringAt,Bool.and_eq_true,Bool.and_eq_true] at hopens
  obtain ⟨⟨hquote,hapart⟩,hcomes⟩ := hopens
  obtain ⟨q,hk',hq⟩ := (Option.any_eq_true _ _).mp hquote
  obtain ⟨rest,hdrop⟩ : ∃ rest, source.drop k = c :: q :: rest := by
    obtain ⟨hlt,hget⟩ := List.getElem?_eq_some_iff.mp hk'
    obtain ⟨_,hfirst⟩ := List.getElem?_eq_some_iff.mp hk
    exact ⟨_,by rw [List.drop_eq_getElem_cons (by omega),List.drop_eq_getElem_cons hlt,hget,hfirst]⟩
  have hsource : source = source.take k ++ c :: q :: rest := by rw [← hdrop,List.take_append_drop]
  have hsource' : source.recased k = source.take k ++ otherCase c :: q :: rest := by
    rw [Text.recased,List.modify_eq_take_drop,hdrop]
    rfl
  obtain ⟨b,h,hfeeds,hfeeds'⟩ := lineFeeds_letter hc hq (source.take k) rest
  rw [← hsource] at hfeeds
  rw [← hsource'] at hfeeds'
  have hzero : (source.recased k).contains (Char.ofNat 0) = source.contains (Char.ofNat 0) := by
    have hne := h.ne (x := Char.ofNat 0) (by decide)
    rw [hsource',Bool.eq_iff_iff,List.contains_iff_mem,List.contains_iff_mem]
    conv_rhs => rw [hsource]
    simp [hne.1.symm,hne.2.symm]
  have hleft : (Text.unifyNewlines (source.take k) ++ c :: b).length - (Text.unifyNewlines (source.take k)).length =
      b.length + 1 := by
    simp
  rw [hfeeds,hleft] at hcomes
  unfold terminals?
  rw [hzero,hfeeds,hfeeds']
  split
  · rfl
  · have hlength : (Text.unifyNewlines (source.take k) ++ otherCase c :: b).length =
        (Text.unifyNewlines (source.take k) ++ c :: b).length := by simp
    dsimp only
    rw [hlength]
    exact terminalsFrom_letter h hapart hcomes _ []

/-- The letter before the quotes of a string may change its case, if the grammar comes to it. -/
theorem parse?_recased [Resources] (hk : source[k]? = some c) (hc : c ∈ plainLetters)
    (hopens : opensStringAt source k = true) : parse? (source.recased k) = parse? source := by
  have hlength : (source.recased k).length = source.length := List.length_modify _ _ _
  rw [parse?,parse?,terminals?_recased hk hc hopens,hlength]

end Source

end DocLint.Grammar
