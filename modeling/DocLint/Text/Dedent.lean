import DocLint.Text.Strip

/-!
Taking the common margin off the lines of a text.
-/

set_option autoImplicit false

namespace DocLint.Text

def isMarginChar (c : Char) : Bool := c = ' ' || c = '\t'

def marginOf (line : Text) : Text := line.takeWhile isMarginChar

def isMargin (line : Text) : Bool := line.all isMarginChar

def commonMargin : Text → Text → Text
  | a :: as, b :: bs => if a = b then a :: commonMargin as bs else []
  | _, _ => []

/-- The longest common margin of all lines that hold something else than blanks and tabs. -/
def sharedMargin (lines : List Text) : Text :=
  match (lines.filter fun l => !isMargin l).map marginOf with
  | [] => []
  | m :: ms => ms.foldl commonMargin m

/-- The lines without their common margin; lines of blanks and tabs become empty. -/
def dedentLines (lines : List Text) : List Text :=
  let margin := sharedMargin lines
  lines.map fun l => if isMargin l then [] else l.drop margin.length

def dedent (t : Text) : Text := join ['\n'] (dedentLines (splitOn '\n' t))

end DocLint.Text
