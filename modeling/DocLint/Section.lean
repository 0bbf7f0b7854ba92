import DocLint.Text.Case
import DocLint.Text.Strip

/-!
Sections of a docstring: lines that hold the name of a section, with the lines that belong to it.
-/

set_option autoImplicit false

namespace DocLint

def leadingWords (line : Text) : Text := line.strip.takeWhile fun c => Text.isWord c || c = ' '

def leadingWords? (line : Text) : Option Text :=
  let words := leadingWords line
  if words.isEmpty then none else some words

structure Section where
  name : Text
  /-- The line above the header; above the first line, the last one. -/
  previous : Text
  line : Text
  /-- The lines below the header, up to the next section or before the last line. -/
  following : List Text
  index : Nat
  isLast : Bool
  deriving DecidableEq, Repr

namespace Section

def numpyNames : List Text :=
  ["Short Summary", "Extended Summary", "Parameters", "Returns", "Yields", "Other Parameters",
    "Raises", "See Also", "Notes", "References", "Examples", "Attributes", "Methods"]

def googleNames : List Text :=
  ["Args", "Arguments", "Attention", "Attributes", "Caution", "Danger", "Error", "Example",
    "Examples", "Hint", "Important", "Keyword Args", "Keyword Arguments", "Methods", "Note",
    "Notes", "Return", "Returns", "Raises", "References", "See Also", "Tip", "Todo", "Warning",
    "Warnings", "Warns", "Yield", "Yields"]

def paragraphEnds : Text := ",;.-\\/]\x7d)"

/-- Whether a line with the name of a section is its header: nothing but a colon follows the name,
and the line above is blank or ends a paragraph. -/
def isHeader (name line previous : Text) : Bool :=
  let suffix := (Text.stripLeftOf name.strip line.strip).strip
  let looksLikeName := suffix.isEmpty || suffix == ":".toList
  let above := previous.strip
  looksLikeName && (above.isEmpty || above.getLast?.any paragraphEnds.contains)

def isSuspect (names : List Text) (line : Text) : Bool :=
  let words := leadingWords line.lower
  !words.isEmpty && names.contains words

/-- The lines that come into question as headers, each with the line above and its number. -/
def suspects (names lines : List Text) : List ((Text × Text) × Nat) :=
  let lowered := names.map Text.lower
  ((lines.getLastD [] :: lines).zip lines).zipIdx.filter fun ((_, line), _) => isSuspect lowered line

/-- A line that comes into question, if it has words: number, name, line above and header. -/
def named? : (Text × Text) × Nat → Option (Nat × Text × Text × Text)
  | ((previous, line), i) => (leadingWords? line).map fun name => (i, name, previous, line)

/-- The headers among some lines. There is no answer if one of the lines that come into question has
no words. -/
def headers? (names lines : List Text) : Option (List (Nat × Text × Text × Text)) :=
  ((suspects names lines).mapM named?).map fun named =>
    named.filter fun (_, name, previous, line) => isHeader name line previous

def ofHeader (lines : List Text) (header : Nat × Text × Text × Text)
    (next : Option (Nat × Text × Text × Text)) : Section :=
  let (index, name, previous, line) := header
  let stop := match next with
    | some (i, _) => i
    | none => lines.length - 1
  { name, previous, line, following := (lines.take stop).drop (index + 1), index
    isLast := next.isNone }

def sectionsOf? (names lines : List Text) : Option (List Section) :=
  (headers? names lines).map fun headers =>
    (successors headers).map fun (header, next) => ofHeader lines header next

end Section

end DocLint
