import DocLint.Text.Strip

/-!
Wrapping: a paragraph broken into lines of a width, at blanks and behind hyphens inside words.
-/

set_option autoImplicit false

namespace DocLint.Text

def isWrapSpace (c : Char) : Bool := (" \t\n\r\x0b\x0c".toList).contains c

def isLetterLike (c : Char) : Bool := isWord c && !isAsciiDigit c

def isWordOrMark (c : Char) : Bool := isWord c || ("!\"'&.,?".toList).contains c

/-- Whether a break is allowed behind a hyphen: two letters stand before it, or a letter, a hyphen and a
letter, and the same behind it. What stands before is reversed. -/
def breaksBehindHyphen (seen rest : Text) : Bool :=
  let before := match seen with
    | a :: b :: more =>
      isLetterLike a && (isLetterLike b || (b = '-' && (more.head?).any isLetterLike))
    | _ => false
  let behind := match rest with
    | a :: b :: more =>
      isLetterLike a && (isLetterLike b || (b = '-' && (more.head?).any isLetterLike))
    | _ => false
  before && behind

def dashBegins (seen rest : Text) : Bool :=
  let hyphens := rest.takeWhile (· = '-')
  (seen.head?).any isWordOrMark && 2 ≤ hyphens.length &&
    ((rest.drop hyphens.length).head?).any isWord

def pieceLength (seen : Text) : Text → Nat
  | [] => 0
  | c :: cs =>
    if isWrapSpace c then 0
    else if c = '-' && breaksBehindHyphen seen cs then 1
    else if dashBegins seen (c :: cs) then 0
    else pieceLength (c :: seen) cs + 1

def firstPiece (seen : Text) : Text → Nat
  | [] => 0
  | c :: cs =>
    if isWrapSpace c then ((c :: cs).takeWhile isWrapSpace).length
    else if dashBegins seen (c :: cs) then ((c :: cs).takeWhile (· = '-')).length
    else pieceLength (c :: seen) cs + 1

def piecesFrom : Nat → Text → Text → List Text
  | 0, _, _ => []
  | fuel + 1, seen, t =>
    if t.isEmpty then []
    else
      let n := firstPiece seen t
      t.take n :: piecesFrom fuel ((t.take n).reverse ++ seen) (t.drop n)

def pieces (t : Text) : List Text := piecesFrom t.length [] t

def fitting : Nat → List Text → List Text × List Text
  | _, [] => ([], [])
  | width, p :: ps =>
    if p.length ≤ width then
      let (line, rest) := fitting (width - p.length) ps
      (p :: line, rest)
    else ([], p :: ps)

/-- Where a piece that fits no line is broken: behind its last hyphen, or where the line ends. -/
def breakPoint (room : Nat) (piece : Text) : Nat :=
  let front := piece.take room
  let kept := beforeLast '-' front
  if kept.any (· ≠ '-') then kept.length + 1 else room

def fillUp (width : Nat) (line rest : List Text) : List Text × List Text :=
  match rest with
  | p :: ps =>
    if width < p.length then
      let n := breakPoint (width - line.flatten.length) p
      (line ++ [p.take n], p.drop n :: ps)
    else (line, rest)
  | [] => (line, [])

def withoutLastBlank (line : List Text) : List Text :=
  match line.getLast? with
  | some p => if isBlank p then line.dropLast else line
  | none => line

/-- Lines of pieces; blanks at the beginning of a line fall away, those of the first line excepted. -/
def linesFrom (width : Nat) : Nat → Bool → List Text → List Text
  | 0, _, _ => []
  | fuel + 1, isFirst, ps =>
    match ps with
    | [] => []
    | p :: more =>
      let ps := if !isFirst && isBlank p then more else p :: more
      let (line, rest) := fitting width ps
      let (line, rest) := fillUp width line rest
      let line := withoutLastBlank line
      if line.isEmpty then linesFrom width fuel isFirst rest
      else line.flatten :: linesFrom width fuel false rest

def wrap (width : Nat) (t : Text) : List Text :=
  let plain := t.map fun c => if isWrapSpace c then ' ' else c
  linesFrom width (plain.length + 1) true (pieces plain)

end DocLint.Text
