import DocLint.Finding

/-!
Checks on the lines of a docstring and on the blank lines around it.
-/

set_option autoImplicit false

namespace DocLint.Check.Layout

variable [Resources]

def leadingBlanks (lines : List Text) : Nat := (lines.takeWhile Text.isBlank).length

/-- A text of several lines of which only one is not blank should be on one line. -/
def oneLine : Docstring → Except CheckFault (List Finding) := Docstring.judged fun t =>
  let lines := Text.splitOn '\n' t
  if lines.length > 1 && (lines.filter fun l => !Text.isBlank l).length == 1 then
    [Rule.D200.count lines.length]
  else []

/-- What stands around a docstring in the source of its definition. -/
structure Surroundings where
  before : Text
  after : Text

/-- The source of a definition before and after the first occurrence of its docstring. -/
def surroundings (s : Subject) (d : Docstring) : Surroundings :=
  let (before, after) := Text.cut d.text s.source
  { before, after }

def Surroundings.blanksBefore (x : Surroundings) : Nat :=
  leadingBlanks (Text.splitOn '\n' x.before).dropLast.reverse

def Surroundings.linesAfter (x : Surroundings) : List Text := (Text.splitOn '\n' x.after).drop 1

def Surroundings.blanksAfter (x : Surroundings) : Nat := leadingBlanks x.linesAfter

def Surroundings.endsBlank (x : Surroundings) : Bool := x.linesAfter.all Text.isBlank

def Surroundings.indent (x : Surroundings) : Text := Text.afterLast '\n' x.before

def definitionWords : List Text := ["class", "def", "async def"]

def opensDefinition (after : Text) : Bool :=
  let rest := after.stripLeft
  let opens := "@".toList.isPrefixOf rest ||
    definitionWords.any fun w =>
      w.isPrefixOf rest && ((rest.drop w.length).head?.map Text.isSpace).getD false
  opens && rest.length < after.length

def functionBlanks (s : Subject) (d : Docstring) : List Finding :=
  let x := surroundings s d
  let before := x.blanksBefore
  let after := x.blanksAfter
  (if before ≠ 0 then [Rule.D201.count before] else []) ++
    if !x.endsBlank && after ≠ 0 && !(after == 1 && opensDefinition x.after) then
      [Rule.D202.count after] else []

def classBlanks (s : Subject) (d : Docstring) : List Finding :=
  let x := surroundings s d
  let before := x.blanksBefore
  let after := x.blanksAfter
  (if before ≠ 0 then [Rule.D211.count before] else []) ++
    (if before ≠ 1 then [Rule.D203.count before] else []) ++
    if !x.endsBlank && after ≠ 1 then [Rule.D204.count after] else []

def blankAfterSummary : Docstring → Except CheckFault (List Finding) := Docstring.judged fun t =>
  match Text.splitOn '\n' t.strip with
  | _ :: l :: ls =>
    let blanks := leadingBlanks (l :: ls)
    if blanks ≠ 1 then [Rule.D205.count blanks] else []
  | _ => []

/-- The lines behind the first whose indentation counts: those that do not continue a line which
ends in a backslash. -/
def indentedLines (lines : List Text) : List Text :=
  ((lines.zip (lines.drop 1)).filter fun (above, _) => !"\\".toList.isSuffixOf above).map (·.2)

/-- The least of some texts in the order of code points. There has to be one. -/
def least : List Text → Except CheckFault Text
  | [] => .error .noIndent
  | t :: ts => .ok (ts.foldl (fun a b => if Text.before b a then b else a) t)

/-- Whether lines are indented deeper than the docstring: the last one, or all the others. -/
def isDeeper (indent : Text) (indents : List Text) : Except CheckFault Bool := do
  let last := indents.getLast?.any fun t => Text.before indent t
  if indents.length > 1 then return Text.before indent (← least indents.dropLast) || last
  else return last

def isShallower (indent : Text) (indents : List Text) : Except CheckFault Bool := do
  if indents.length > 0 then return Text.before (← least indents) indent else return false

def isMixed (chars : Text) : Bool :=
  chars.contains ' ' && chars.contains '\t' && chars.all fun c => c = ' ' || c = '\t'

def indentation (s : Subject) (d : Docstring) : Outcome :=
  let indent := (surroundings s d).indent
  let lines := Text.splitOn '\n' d.text
  if lines.length ≤ 1 then {}
  else
    let indents := ((indentedLines lines).filter fun l => !Text.isBlank l).map Text.leadingSpace
    let found := fun (isBroken : Bool) (r : Rule) => if isBroken then [r.plain] else []
    Outcome.ofList (found (isMixed (indents.flatten ++ indent)) .D206) ++
      (Outcome.ofExcept ((isDeeper indent indents).map (found · .D208)) ++
        Outcome.ofExcept ((isShallower indent indents).map (found · .D207)))

def lastLine (d : Docstring) : Text := Text.afterLast '\n' d.text

def closingQuotes (d : Docstring) : Except CheckFault (List Finding) := d.judged fun t =>
  let lines := (Text.splitOn '\n' t).filter fun l => !Text.isBlank l
  let closings : List Text := ["\"\"\"", "'''"]
  if lines.length > 1 && !closings.contains (lastLine d).strip then [Rule.D209.plain] else []

def surroundingBlanks : Docstring → Except CheckFault (List Finding) := Docstring.judged fun t =>
  let opens := " ".toList.isPrefixOf t
  let ends := !t.contains '\n' && " ".toList.isSuffixOf t
  if opens || ends then [Rule.D210.plain] else []

def openingQuotes : List Text :=
  ["\"\"\"", "'''", "u\"\"\"", "u'''", "r\"\"\"", "r'''", "ur\"\"\"", "ur'''"]

def summaryStart (d : Docstring) : Except CheckFault (List Finding) := d.judged fun t =>
  if !t.contains '\n' then []
  else
    let first := Text.lower (Text.strip (d.text.takeWhile (· ≠ '\n')))
    [if openingQuotes.contains first then Rule.D212.plain else Rule.D213.plain]

end DocLint.Check.Layout
