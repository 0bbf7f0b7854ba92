import DocLint.Proofs.Token.Lexeme
import DocLint.Token.Scan

/-!
Two letters that may stand before the quotes of a literal, brought to lower case. Tokens take no notice of
their case: the tokens of a text with the letters folded are the tokens of the text with theirs folded.
-/

set_option autoImplicit false

namespace DocLint

/-- The letters that may stand before the quotes of a plain literal. -/
def plainLetters : List Char := ['r', 'R', 'u', 'U']

def foldMark (c : Char) : Char := if c = 'R' then 'r' else if c = 'U' then 'u' else c

def Text.folded (t : Text) : Text := t.map foldMark

variable {c x : Char} {t : Text}

theorem foldMark_cases (c : Char) : foldMark c = c ∨ c = 'R' ∧ foldMark c = 'r' ∨ c = 'U' ∧ foldMark c = 'u' := by
  unfold foldMark
  split
  · rename_i h
    exact .inr (.inl ⟨h,rfl⟩)
  · split
    · rename_i h
      exact .inr (.inr ⟨h,rfl⟩)
    · exact .inl rfl

/-- What tells the cases of these letters not apart is not changed by folding. -/
theorem foldMark_congr {α : Type} {p : Char → α} (hr : p 'r' = p 'R') (hu : p 'u' = p 'U') (c : Char) :
    p (foldMark c) = p c := by
  rcases foldMark_cases c with hc | ⟨rfl,hc⟩ | ⟨rfl,hc⟩ <;> rw [hc]
  · exact hr
  · exact hu

theorem foldMark_eq_iff (hx : x ∉ plainLetters) : foldMark c = x ↔ c = x := by
  constructor
  · intro h
    rcases foldMark_cases c with hc | ⟨-,hc⟩ | ⟨-,hc⟩
    · exact hc.symm.trans h
    · exact absurd (by rw [← h,hc]; decide) hx
    · exact absurd (by rw [← h,hc]; decide) hx
  · rintro rfl
    rcases foldMark_cases c with hc | ⟨rfl,-⟩ | ⟨rfl,-⟩
    · exact hc
    · exact absurd (by decide) hx
    · exact absurd (by decide) hx

theorem foldMark_of_not_mem (hx : x ∉ plainLetters) : foldMark x = x :=
  (foldMark_eq_iff hx).mpr rfl

@[simp] theorem Text.isWord_foldMark (c : Char) : Text.isWord (foldMark c) = Text.isWord c :=
  foldMark_congr (by decide) (by decide) c

@[simp] theorem Text.isSpace_foldMark (c : Char) : Text.isSpace (foldMark c) = Text.isSpace c :=
  foldMark_congr (by decide) (by decide) c

@[simp] theorem Text.isAsciiDigit_foldMark (c : Char) : Text.isAsciiDigit (foldMark c) = Text.isAsciiDigit c :=
  foldMark_congr (by decide) (by decide) c

@[simp] theorem Text.isIdentifierStart_foldMark (c : Char) :
    Text.isIdentifierStart (foldMark c) = Text.isIdentifierStart c :=
  foldMark_congr (by decide) (by decide) c

@[simp] theorem Text.folded_length : t.folded.length = t.length := List.length_map _

@[simp] theorem Text.folded_append {a b : Text} : (a ++ b).folded = a.folded ++ b.folded := List.map_append

@[simp] theorem Text.folded_cons : Text.folded (c :: t) = foldMark c :: t.folded := rfl

@[simp] theorem Text.folded_nil : Text.folded [] = [] := rfl

@[simp] theorem Text.folded_drop {n : Nat} : t.folded.drop n = Text.folded (t.drop n) := List.map_drop.symm

@[simp] theorem Text.folded_take {n : Nat} : t.folded.take n = Text.folded (t.take n) := List.map_take.symm

theorem Text.folded_takeWhile {p : Char → Bool} (hp : ∀ c, p (foldMark c) = p c) :
    t.folded.takeWhile p = Text.folded (t.takeWhile p) := by
  have h : p ∘ foldMark = p := funext hp
  rw [folded,List.takeWhile_map,h]
  rfl

theorem Text.folded_dropWhile {p : Char → Bool} (hp : ∀ c, p (foldMark c) = p c) :
    t.folded.dropWhile p = Text.folded (t.dropWhile p) := by
  have h : p ∘ foldMark = p := funext hp
  rw [folded,List.dropWhile_map,h]
  rfl

/-- A text without these letters is only folded from itself. -/
theorem not_mem_of_words {ws : List Text} (h : (ws.all (·.all (!plainLetters.contains ·))) = true) :
    ∀ w ∈ ws, ∀ x ∈ w, x ∉ plainLetters := by
  simpa using h

theorem Text.folded_eq_iff {w : Text} (hw : ∀ x ∈ w, x ∉ plainLetters) : t.folded = w ↔ t = w := by
  induction t generalizing w with
  | nil => simp
  | cons c t ih =>
    cases w with
    | nil => simp
    | cons x w =>
      obtain ⟨hx,hw⟩ := List.forall_mem_cons.mp hw
      simp [foldMark_eq_iff hx,ih hw]

theorem Text.isPrefixOf_folded {w : Text} (hw : ∀ x ∈ w, x ∉ plainLetters) :
    w.isPrefixOf t.folded = w.isPrefixOf t := by
  induction w generalizing t with
  | nil => simp
  | cons x w ih =>
    obtain ⟨hx,hw⟩ := List.forall_mem_cons.mp hw
    cases t with
    | nil => rfl
    | cons c t =>
      have hhead : (x == foldMark c) = (x == c) := by
        rw [Bool.eq_iff_iff,beq_iff_eq,beq_iff_eq,eq_comm,foldMark_eq_iff hx,eq_comm]
      simp [List.isPrefixOf,hhead,ih hw]

namespace Lexeme

/-- A reader that takes no notice of the case of the folded letters. -/
def Folds (r : Reader) : Prop :=
  ∀ t : Text, r t.folded = (r t).map fun p => (p.1.folded, p.2.folded)

/-! ### Numbers -/

theorem digitsTail_folded {isDigit : Char → Bool} (h : ∀ c, isDigit (foldMark c) = isDigit c) (t : Text) :
    digitsTail isDigit t.folded =
      ((digitsTail isDigit t).1.folded, (digitsTail isDigit t).2.folded) := by
  have hscore : foldMark '_' = '_' := by decide
  have hplain {d : Char} {cs : Text} (hnot : ∀ e es, d = '_' → cs = e :: es → False) :
      ∀ e es, foldMark d = '_' → cs.folded = e :: es → False := by
    intro e es hd hcs
    cases cs with
    | nil => cases hcs
    | cons x xs => exact hnot x xs ((foldMark_eq_iff (by decide)).mp hd) rfl
  fun_induction digitsTail isDigit t with
  | case1 d cs hd taken rest heq ih => simp_all [digitsTail]
  | case2 d cs hd => simp_all [digitsTail]
  | case3 d cs hnot hd taken rest heq ih =>
    rw [Text.folded_cons,digitsTail.eq_2 _ _ _ (hplain hnot)]
    simp_all
  | case4 d cs hnot hd =>
    rw [Text.folded_cons,digitsTail.eq_2 _ _ _ (hplain hnot)]
    simp_all
  | case5 => simp [digitsTail]

theorem digits_folds : Folds digits := by
  intro t
  cases t with
  | nil => rfl
  | cons d cs =>
    simp only [digits,Text.folded_cons,Text.isAsciiDigit_foldMark,digitsTail_folded Text.isAsciiDigit_foldMark]
    split <;> rfl

theorem exponent_folded (t : Text) : exponent t.folded = ((exponent t).1.folded, (exponent t).2.folded) := by
  cases t with
  | nil => rfl
  | cons e cs =>
    simp (disch := decide) only [exponent,Text.folded_cons,foldMark_eq_iff]
    split
    · cases cs with
      | nil => rfl
      | cons s ds =>
        simp (disch := decide) only [Text.folded_cons,foldMark_eq_iff]
        by_cases hs : s = '+' ∨ s = '-'
        · simp only [hs,if_true,digits_folds ds]
          cases digits ds <;> simp
        · simp only [hs,if_false,← Text.folded_cons,digits_folds (s :: ds)]
          cases digits (s :: ds) <;> simp
    · rfl

theorem pointFloat_folds : Folds pointFloat
  | [] => rfl
  | c :: cs => by
    have hpoint : foldMark '.' = '.' := by decide
    simp only [Text.folded_cons,pointFloat,foldMark_eq_iff (x := '.') (by decide)]
    split
    · rw [digits_folds cs]
      cases digits cs <;> simp [exponent_folded,hpoint]
    · rw [← Text.folded_cons,digits_folds (c :: cs)]
      rcases digits (c :: cs) with _ | ⟨whole,_ | ⟨p,rest⟩⟩
      · rfl
      · rfl
      · simp only [Option.map_some,Text.folded_cons,foldMark_eq_iff (x := '.') (by decide)]
        split
        · rw [digits_folds rest]
          cases digits rest <;> simp [exponent_folded,hpoint]
        · rfl

theorem exponentFloat_folds : Folds exponentFloat := by
  intro t
  simp only [exponentFloat,digits_folds t]
  cases hd : digits t with
  | none => rfl
  | some p =>
    simp only [Option.map_some,exponent_folded]
    generalize exponent p.2 = found
    obtain ⟨e,rest⟩ := found
    cases e <;> simp

theorem orElse_folded {a b a' b' : Option (Text × Text)} (ha : a' = a.map fun p => (p.1.folded, p.2.folded))
    (hb : b' = b.map fun p => (p.1.folded, p.2.folded)) :
    (a'.orElse fun _ => b') = (a.orElse fun _ => b).map fun p => (p.1.folded, p.2.folded) := by
  rw [ha,hb]
  cases a <;> rfl

theorem orElse_folds {r r' : Reader} (h : Folds r) (h' : Folds r') :
    Folds fun t => (r t).orElse fun _ => r' t := fun t => orElse_folded (h t) (h' t)

theorem float_folds : Folds float := orElse_folds pointFloat_folds exponentFloat_folds

/-- A number with a mark behind it. -/
theorem marked_folds {r : Reader} (h : Folds r) : Folds fun t =>
    match r t with
    | some (n, j :: rest) => if j = 'j' ∨ j = 'J' then some (n ++ [j], rest) else none
    | _ => none := by
  intro t
  simp only [h t]
  cases hr : r t with
  | none => rfl
  | some p =>
    obtain ⟨n,rest⟩ := p
    cases rest with
    | nil => rfl
    | cons j rest =>
      simp (disch := decide) only [Option.map_some,Text.folded_cons,foldMark_eq_iff]
      split <;> simp

theorem imaginary_folds : Folds imaginary := orElse_folds (marked_folds digits_folds) (marked_folds float_folds)

theorem basedDigits_folded {isDigit : Char → Bool} (h : ∀ c, isDigit (foldMark c) = isDigit c) {m : Char}
    (hm : m ∉ plainLetters) (t : Text) : basedDigits isDigit m t.folded =
      (basedDigits isDigit m t).map fun p => (p.1.folded, p.2.folded) := by
  have hzero : foldMark '0' = '0' := by decide
  rw [basedDigits,basedDigits,digitsTail_folded h]
  generalize digitsTail isDigit t = found
  obtain ⟨ds,rest⟩ := found
  cases ds <;> simp [hzero,foldMark_of_not_mem hm]

/-- A number in another base, by its mark. -/
theorem based_folded {m x y : Char} {isDigit : Char → Bool} {t : Text} {r r' : Option (Text × Text)}
    (hx : x ∉ plainLetters) (hy : y ∉ plainLetters) (hr : isDigit 'r' = isDigit 'R')
    (hu : isDigit 'u' = isDigit 'U') (h : r' = r.map fun p => (p.1.folded, p.2.folded)) :
    (if foldMark m = x ∨ foldMark m = y then basedDigits isDigit (foldMark m) t.folded else r') =
      (if m = x ∨ m = y then basedDigits isDigit m t else r).map fun p => (p.1.folded, p.2.folded) := by
  simp only [foldMark_eq_iff hx,foldMark_eq_iff hy]
  split
  · rename_i hm
    have hmark : m ∉ plainLetters := by
      rcases hm with rfl | rfl
      · exact hx
      · exact hy
    rw [foldMark_of_not_mem hmark,basedDigits_folded (foldMark_congr hr hu) hmark]
  · exact h

theorem integer_folds : Folds integer
  | [] => rfl
  | d :: cs => by
    have hzero : foldMark '0' = '0' := by decide
    have hzeros (c : Char) : decide (foldMark c = '0') = decide (c = '0') :=
      foldMark_congr (p := fun c => decide (c = '0')) (by decide) (by decide) c
    simp only [Text.folded_cons,integer,foldMark_eq_iff (x := '0') (by decide)]
    split
    · refine orElse_folded ?_ ?_
      · cases cs with
        | nil => rfl
        | cons m cs =>
          refine based_folded (by decide) (by decide) (by decide) (by decide) ?_
          refine based_folded (by decide) (by decide) (by decide) (by decide) ?_
          exact based_folded (by decide) (by decide) (by decide) (by decide) rfl
      · rw [digitsTail_folded hzeros]
        simp [hzero]
    · exact digits_folds (d :: cs)

theorem number_folds : Folds number := orElse_folds (orElse_folds imaginary_folds float_folds) integer_folds

/-! ### Strings -/

@[simp] theorem isBlank_foldMark (c : Char) : isBlank (foldMark c) = isBlank c :=
  foldMark_congr (by decide) (by decide) c

@[simp] theorem isQuote_foldMark (c : Char) : isQuote (foldMark c) = isQuote c :=
  foldMark_congr (by decide) (by decide) c

theorem not_mem_of_isQuote {q : Char} (h : isQuote q = true) : q ∉ plainLetters := by
  simp only [isQuote,decide_eq_true_eq] at h
  rcases h with rfl | rfl <;> decide

theorem isLiteralMark_folded (t : Text) : isLiteralMark t.folded = isLiteralMark t := by
  have hlower (c : Char) := foldMark_congr
    (p := fun c => if Text.isAsciiUpper c then Char.ofNat (c.toNat + 32) else c) (by decide) (by decide) c
  simp only [isLiteralMark,Text.folded,List.map_map,Function.comp_def,hlower]

theorem markOf?_folded (t : Text) (n : Nat) :
    markOf? t.folded n = (markOf? t n).map fun p => (p.1.folded, p.2.folded) := by
  rw [markOf?,markOf?,Text.folded_drop,Text.folded_take]
  cases t.drop n with
  | nil => rfl
  | cons q rest =>
    simp only [Text.folded_cons,isQuote_foldMark,isLiteralMark_folded]
    split <;> rfl

theorem literalMark?_folds : Folds literalMark? := by
  intro t
  simp only [literalMark?,List.findSome?_cons,List.findSome?_nil,markOf?_folded]
  cases markOf? t 0 <;> cases markOf? t 1 <;> cases markOf? t 2 <;> rfl

theorem tripleQuote?_folded (t : Text) :
    tripleQuote? t.folded = (tripleQuote? t).map fun p => (p.1, p.2.folded) := by
  match t with
  | [] => rfl
  | [_] => rfl
  | [_, _] => rfl
  | a :: b :: c :: rest =>
    have hiff : isQuote a = true ∧ foldMark a = foldMark b ∧ foldMark b = foldMark c ↔
        isQuote a = true ∧ a = b ∧ b = c := by
      refine and_congr_right fun ha => ?_
      have hx := not_mem_of_isQuote ha
      rw [foldMark_of_not_mem hx,eq_comm,foldMark_eq_iff hx,eq_comm]
      refine and_congr_right fun hab => ?_
      rw [← hab,foldMark_of_not_mem hx,eq_comm,foldMark_eq_iff hx,eq_comm]
    simp only [tripleQuote?,Text.folded_cons,isQuote_foldMark,hiff]
    split
    · rename_i h
      simp [foldMark_of_not_mem (not_mem_of_isQuote h.1)]
    · rfl

/-- A character before what a reader has taken. -/
theorem map_cons_folded {d : Char} {r r' : Option (Text × Text)} (hd : d = foldMark c)
    (h : r' = r.map fun p => (p.1.folded, p.2.folded)) :
    (r'.map fun p => (d :: p.1, p.2)) =
      (r.map fun p => (c :: p.1, p.2)).map fun p => (Text.folded p.1, p.2.folded) := by
  rw [h,hd]
  cases r <;> rfl

theorem find_isPrefixOf_folded {ws : List Text} (h : ∀ w ∈ ws, ∀ x ∈ w, x ∉ plainLetters) :
    ws.find? (·.isPrefixOf t.folded) = ws.find? (·.isPrefixOf t) := by
  induction ws with
  | nil => rfl
  | cons w ws ih =>
    obtain ⟨hw,hws⟩ := List.forall_mem_cons.mp h
    simp only [List.find?_cons,Text.isPrefixOf_folded hw,ih hws]

theorem oneOf_folds {ws : List Text} (h : ∀ w ∈ ws, ∀ x ∈ w, x ∉ plainLetters) : Folds (oneOf ws) := by
  intro t
  rw [oneOf,oneOf,find_isPrefixOf_folded h]
  cases hw : ws.find? (·.isPrefixOf t) with
  | none => rfl
  | some w =>
    have hsame := (Text.folded_eq_iff (h w (List.mem_of_find?_eq_some hw))).mpr rfl
    simp [hsame]

theorem stringRest_folds {closings : Bool → List Text} {broken : Bool → Char → Bool}
    (hplain : ∀ escaped, ∀ w ∈ closings escaped, ∀ x ∈ w, x ∉ plainLetters)
    (hbroken : ∀ escaped c, broken escaped (foldMark c) = broken escaped c) (escaped : Bool) :
    Folds (stringRest closings broken escaped) := by
  intro t
  induction t generalizing escaped with
  | nil => rfl
  | cons c t ih =>
    have hslash : (foldMark c == '\\') = (c == '\\') := foldMark_congr (p := (· == '\\')) (by decide) (by decide) c
    refine orElse_folded (oneOf_folds (hplain escaped) (c :: t)) ?_
    rw [hbroken,hslash]
    split
    · rfl
    · exact map_cons_folded rfl (ih _)

theorem stringEnd_folds {quote : Char} (hq : isQuote quote = true) (triple : Bool) : Folds (stringEnd quote triple) := by
  have hx := not_mem_of_isQuote hq
  refine stringRest_folds (fun escaped => ?_) (fun escaped => foldMark_congr (by decide +revert) (by decide +revert)) false
  cases escaped <;> cases triple <;> simp [hx]

theorem lineString_folds {quote : Char} (hq : isQuote quote = true) : Folds (lineString quote) := by
  refine stringRest_folds (fun escaped => ?_) (fun escaped => foldMark_congr (by decide +revert) (by decide +revert)) false
  cases escaped
  · simp [not_mem_of_isQuote hq]
  · exact not_mem_of_words rfl

theorem string_folds : Folds string := by
  intro t
  simp only [string,literalMark?_folds t]
  cases hm : literalMark? t with
  | none => rfl
  | some p =>
    obtain ⟨mark,quoted⟩ := p
    obtain ⟨-,-,q,rest,rfl,hq⟩ := literalMark_eq hm
    have hquote := foldMark_of_not_mem (not_mem_of_isQuote hq)
    simp only [Option.map_some,Text.folded_cons,hquote,lineString_folds hq rest]
    cases lineString q rest <;> simp [hquote]

/-! ### Other lexemes -/

theorem word_folds : Folds word := by
  intro t
  simp only [word,Text.folded_takeWhile Text.isWord_foldMark,Text.folded_dropWhile Text.isWord_foldMark]
  cases t.takeWhile Text.isWord <;> rfl

theorem comment_folds : Folds comment
  | [] => rfl
  | c :: cs => by
    have hmark : foldMark '#' = '#' := by decide
    have hinside := foldMark_congr (p := fun c => decide (c ≠ '\r' ∧ c ≠ '\n')) (by decide) (by decide)
    simp only [Text.folded_cons,comment,foldMark_eq_iff (x := '#') (by decide)]
    split
    · rw [Text.folded_takeWhile hinside,Text.folded_dropWhile hinside]
      simp [hmark]
    · rfl

theorem lineEnd_folds : Folds lineEnd := oneOf_folds (not_mem_of_words (by decide))

theorem continuation_folds : Folds continuation
  | [] => rfl
  | c :: cs => by
    have hslash : foldMark '\\' = '\\' := by decide
    simp only [Text.folded_cons,continuation,foldMark_eq_iff (x := '\\') (by decide)]
    split
    · exact map_cons_folded hslash.symm (lineEnd_folds cs)
    · rfl

theorem operator_folds : Folds operator := oneOf_folds (not_mem_of_words (by decide))

theorem tripleOpening_folds : Folds tripleOpening := by
  intro t
  simp only [tripleOpening,literalMark?_folds t]
  cases hm : literalMark? t with
  | none => rfl
  | some p =>
    obtain ⟨mark,quoted⟩ := p
    simp only [Option.map_some,tripleQuote?_folded]
    cases ht : tripleQuote? quoted with
    | none => rfl
    | some p =>
      have hquote := foldMark_of_not_mem (not_mem_of_isQuote (@tripleQuote_eq _ p.1 p.2 ht).2)
      simp [hquote]

theorem findSome_folded {rs : List Reader} (h : ∀ r ∈ rs, Folds r) : Folds fun t => rs.findSome? (· t) := by
  intro t
  induction rs with
  | nil => rfl
  | cons r rs ih =>
    obtain ⟨hr,hrs⟩ := List.forall_mem_cons.mp h
    simp only [List.findSome?_cons,hr t]
    cases r t with
    | none => exact ih hrs
    | some p => rfl

theorem next_folds : Folds next := by
  refine findSome_folded ?_
  simp only [List.forall_mem_cons,List.not_mem_nil,false_implies,implies_true,and_true]
  exact ⟨continuation_folds,comment_folds,tripleOpening_folds,number_folds,lineEnd_folds,operator_folds,
    string_folds,word_folds⟩

end Lexeme

end DocLint
