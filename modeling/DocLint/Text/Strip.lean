import DocLint.Text.Property

/-!
Whitespace at the ends of a text and between its words, and the breaking of a text into lines.
-/

set_option autoImplicit false

namespace DocLint.Text

def stripLeft (t : Text) : Text := t.dropWhile isSpace

def stripRight (t : Text) : Text := (t.reverse.dropWhile isSpace).reverse

def strip (t : Text) : Text := stripRight (stripLeft t)

def stripLeftOf (set t : Text) : Text := t.dropWhile (set.contains ·)

def stripRightOf (set t : Text) : Text := (t.reverse.dropWhile (set.contains ·)).reverse

def isBlank (t : Text) : Bool := (strip t).isEmpty

theorem dropWhile_eq_nil_iff {p : Char → Bool} {t : Text} :
    t.dropWhile p = [] ↔ ∀ c ∈ t, p c = true := by
  induction t with
  | nil => simp
  | cons c cs ih =>
    by_cases h : p c = true
    · simp [h, ih]
    · simp [h]

theorem isBlank_iff (t : Text) : isBlank t = true ↔ ∀ c ∈ t, isSpace c = true := by
  have key : strip t = [] ↔ ∀ c ∈ t, isSpace c = true := by
    unfold strip stripRight stripLeft
    rw [List.reverse_eq_nil_iff, dropWhile_eq_nil_iff, ← @dropWhile_eq_nil_iff _ t]
    constructor
    · intro h
      cases hd : t.dropWhile isSpace with
      | nil => rfl
      | cons c cs =>
        have hc : isSpace c = true := h c (by simp [hd])
        have := List.head_dropWhile_not (l := t) isSpace (by simp [hd])
        simp [hd, hc] at this
    · intro h; simp [h]
  simp [isBlank, key]

def leadingSpace (t : Text) : Text := t.takeWhile isSpace

def addToWords (c : Char) : Bool × List Text → Bool × List Text
  | (inWord, words) =>
    if isSpace c then (false, words)
    else
      match inWord, words with
      | true, w :: ws => (true, (c :: w) :: ws)
      | _, ws => (true, [c] :: ws)

def words (t : Text) : List Text := (t.foldr addToWords (false, [])).2

/-- Lines broken at every line break character, with their ends; a carriage return and the line
feed behind it are one end. -/
def splitLines : Text → List Text
  | [] => []
  | '\r' :: '\n' :: cs => ['\r', '\n'] :: splitLines cs
  | c :: cs =>
    if isLineBreak c then [c] :: splitLines cs
    else
      match splitLines cs with
      | [] => [[c]]
      | l :: ls => (c :: l) :: ls

def dropTrailing (p : Char → Bool) (t : Text) : Text := (t.reverse.dropWhile p).reverse

def unifyNewlines : Text → Text
  | [] => []
  | '\r' :: '\n' :: cs => '\n' :: unifyNewlines cs
  | c :: cs => (if c = '\r' then '\n' else c) :: unifyNewlines cs

end DocLint.Text
