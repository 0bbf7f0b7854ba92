/-!
Text as a list of characters: cutting it apart at separators and putting it together again.
-/

set_option autoImplicit false

namespace DocLint

/-- A sequence of code points. String literals stand for their characters. -/
abbrev Text := List Char

instance : Coe String Text := ⟨String.toList⟩

namespace Text

def literals (strings : List String) : List Text := strings.map String.toList

def ofNat (n : Nat) : Text := Nat.toDigits 10 n

def ofInt : Int → Text
  | .ofNat n => ofNat n
  | .negSucc n => '-' :: ofNat (n + 1)

def splitOn (sep : Char) : Text → List Text
  | [] => [[]]
  | c :: cs =>
    match splitOn sep cs with
    | [] => [[c]]
    | p :: ps => if c = sep then [] :: p :: ps else (c :: p) :: ps

theorem splitOn_ne_nil (sep : Char) (t : Text) : splitOn sep t ≠ [] := by
  cases t with
  | nil => simp [splitOn]
  | cons c cs =>
    unfold splitOn
    split
    · simp
    · split <;> simp

def join (sep : Text) : List Text → Text
  | [] => []
  | [p] => p
  | p :: ps => p ++ sep ++ join sep ps

def cut? (sep : Text) : Text → Option (Text × Text)
  | [] => if sep.isEmpty then some ([], []) else none
  | c :: cs =>
    if sep.isPrefixOf (c :: cs) then some ([], (c :: cs).drop sep.length)
    else (cut? sep cs).map fun (a, b) => (c :: a, b)

def cut (sep t : Text) : Text × Text := (cut? sep t).getD (t, [])

def containsText (sub t : Text) : Bool := (cut? sub t).isSome

def afterLast (sep : Char) (t : Text) : Text := (t.reverse.takeWhile (· ≠ sep)).reverse

def beforeLast (sep : Char) (t : Text) : Text :=
  ((t.reverse.dropWhile (· ≠ sep)).drop 1).reverse

def replaceFrom (old new : Text) : Nat → Text → Text
  | _, [] => []
  | skip + 1, _ :: cs => replaceFrom old new skip cs
  | 0, c :: cs =>
    if old.isPrefixOf (c :: cs) then new ++ replaceFrom old new (old.length - 1) cs
    else c :: replaceFrom old new 0 cs

def replace (old new t : Text) : Text := replaceFrom old new 0 t

/-- Pieces between occurrences of `sep` after passing over `skip` characters; `acc` is the piece
under way, reversed. -/
def splitFrom (sep : Text) : Nat → Text → Text → List Text
  | _, acc, [] => [acc.reverse]
  | skip + 1, acc, _ :: cs => splitFrom sep skip acc cs
  | 0, acc, c :: cs =>
    if sep.isPrefixOf (c :: cs) then acc.reverse :: splitFrom sep (sep.length - 1) [] cs
    else splitFrom sep 0 (c :: acc) cs

def splitOnText (sep t : Text) : List Text := splitFrom sep 0 [] t

/-- Lines with their line feeds; the last may have none. -/
def lines : Text → List Text
  | [] => []
  | c :: cs =>
    if c = '\n' then ['\n'] :: lines cs
    else
      match lines cs with
      | [] => [[c]]
      | l :: ls => (c :: l) :: ls

theorem flatten_lines (t : Text) : (lines t).flatten = t := by
  induction t with
  | nil => rfl
  | cons c cs ih =>
    unfold lines
    split
    · rename_i h; simp [h, ih]
    · split
      · rename_i h; rw [h] at ih; simp at ih; simp [← ih]
      · rename_i l ls h; rw [h] at ih; simp at ih; simp [← ih]

def before (a b : Text) : Bool := decide (a < b)

def padLeft (width : Nat) (t : Text) : Text := List.replicate (width - t.length) ' ' ++ t

def padRight (width : Nat) (t : Text) : Text := t ++ List.replicate (width - t.length) ' '

/-- The text between blanks that fill a width; an odd blank goes to the left if the width is odd,
to the right otherwise. -/
def center (width : Nat) (t : Text) : Text :=
  let pad := width - t.length
  let left := pad / 2 + (pad % 2) * (width % 2)
  List.replicate left ' ' ++ t ++ List.replicate (pad - left) ' '

def commonPrefixLength : Text → Text → Nat
  | a :: as, b :: bs => if a = b then commonPrefixLength as bs + 1 else 0
  | _, _ => 0

end Text

def successors {α : Type} : List α → List (α × Option α)
  | [] => []
  | [a] => [(a, none)]
  | a :: b :: rest => (a, some b) :: successors (b :: rest)

end DocLint
