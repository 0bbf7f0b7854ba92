import DocLint.Check.Layout
import DocLint.Section
import DocLint.Text.Dedent

/-!
Checks on the sections of a docstring.
-/

set_option autoImplicit false

namespace DocLint.Check.Sections

variable [Resources]

open Layout (leadingBlanks surroundings)

def isUnderline (line : Text) : Bool :=
  let t := line.strip
  !t.isEmpty && t.all (· = '-')

def lineAt (lines : List Text) (i : Nat) : Except CheckFault Text :=
  match lines[i]? with
  | some line => .ok line
  | none => .error .noLine

/-- The content of a section behind its underline: `index` is the number of the line below it. -/
def contentBehindUnderline (name : Text) (following : List Text) (index : Nat) :
    Except CheckFault (List Finding) := do
  if index < following.length then
    if Text.isBlank (← lineAt following index) then
      return [if (following.drop index).all Text.isBlank then Rule.D414.with [name]
        else Rule.D412.with [name]]
    else return []
  else return [Rule.D414.with [name]]

/-- The underline of a section, found on a line behind some blank ones; `indent` is the indentation
of the docstring. -/
def underlineAt (name indent line : Text) (blanks : Nat) : List Finding :=
  let dashes := line.strip.length
  (if blanks > 0 then [Rule.D408.with [name]] else []) ++
    (if dashes ≠ name.length then
      [{ rule := .D409, parameters := [.number name.length, .text name, .number dashes] }] else []) ++
    if Text.before indent line.leadingSpace then [Rule.D215.with [name]] else []

def underline (name indent : Text) (following : List Text) : Outcome :=
  let blanks := leadingBlanks following
  if following.all Text.isBlank then .ofList [Rule.D407.with [name], Rule.D414.with [name]]
  else
    match lineAt following blanks with
    | .error fault => .ofFault fault
    | .ok line =>
      if !isUnderline line then
        .ofList (Rule.D407.with [name] :: if blanks > 0 then [Rule.D412.with [name]] else [])
      else
        Outcome.ofList (underlineAt name indent line blanks) ++
          Outcome.ofExcept (contentBehindUnderline name following (blanks + 1))

def commonSection (names : List Text) (indent : Text) (s : Section) : Outcome :=
  let name := s.name.title
  let endsBlank := s.following.getLast?.any Text.isBlank
  Outcome.ofList
      ((if !names.contains s.name && names.contains name then [Rule.D405.with [name, s.name]] else []) ++
        (if Text.before indent s.line.leadingSpace then [Rule.D214.with [name]] else []) ++
        (if endsBlank then [] else [(if s.isLast then Rule.D413 else Rule.D410).with [name]]) ++
        if Text.isBlank s.previous then [] else [Rule.D411.with [name]]) ++
    underline name indent s.following

def headerSuffix (s : Section) : Text := Text.stripLeftOf s.name s.line.strip

def joinedLines (following : List Text) : List Text :=
  Text.splitOn '\n' (Text.replace "\\\n" [] (Text.join "\n" following))

/-- The names that a line documents: those before a colon, separated by commas. -/
def documentedOn (line : Text) : List Text :=
  let names := if line.contains ':' then line.takeWhile (· ≠ ':') else line.strip
  (Text.splitOn ',' names).map Text.strip

/-- The parameters that a section documents: lines as deep as the header, with a deeper line that
is not blank below. -/
def documentedParameters (s : Section) : List Text :=
  let depth := s.line.leadingSpace
  (successors (joinedLines s.following)).flatMap fun (line, next) =>
    match next with
    | none => []
    | some next =>
      if line.leadingSpace = depth ∧ next.leadingSpace.length > line.leadingSpace.length ∧
          !Text.isBlank next then documentedOn line
      else []

def hasDescription (t : Text) : Bool := !(t.dropWhile (· = '\n')).isEmpty

def describes (t : Text) : Bool :=
  match t.stripLeft with
  | ':' :: rest => hasDescription rest
  | _ => false

def describesBehindParenthesis : Text → Bool
  | [] => false
  | c :: cs =>
    if c = '\n' then false
    else (c = ')' && describes cs) || describesBehindParenthesis cs

/-- The argument that an entry describes: a word, perhaps something in parentheses, a colon and a
description. -/
def describedArgument? (entry : Text) : Option Text :=
  let t := entry.stripLeft
  let word := t.takeWhile Text.isWord
  let rest := Text.stripLeft (t.drop word.length)
  let isDescribed := match rest with
    | '(' :: inside => describesBehindParenthesis inside
    | _ => describes rest
  if !word.isEmpty && isDescribed then some word else none

/-- Adds a line to the entries above it, the last one first: one that opens with whitespace continues
an entry. -/
def addLine (above : List Text) (line : Text) : Except CheckFault (List Text) :=
  if (line.head?.map Text.isSpace).getD false then
    match above with
    | entry :: more => .ok ((entry ++ line) :: more)
    | [] => .error .noLine
  else .ok (line :: above)

def entries (lines : List Text) : Except CheckFault (List Text) :=
  (lines.foldlM addLine []).map List.reverse

/-- The lines of a section that are as deep as the first one, without their margin. -/
def argumentLines (following : List Text) : List Text :=
  let depth := match following with
    | [] => []
    | l :: _ => if Text.isBlank l then [] else l.leadingSpace
  let kept := following.filter fun l => depth.isPrefixOf l || l.isEmpty
  (Text.dedent (Text.join "\n" kept)).strip.splitLines

def describedArguments (s : Section) : Except CheckFault (List Text) :=
  (entries (argumentLines s.following)).map (·.filterMap describedArgument?)

/-- What is found about a function with some named parameters: those that are neither private nor
documented. The first one of a method does not count unless it is static. -/
def undocumented (documented names : List Text) (d : Definition) : List Finding :=
  let names := if d.kind == .method && !d.isStatic then names.drop 1 else names
  let missing := (names.filter fun n => !n.isUnderscored && !documented.contains n).eraseDups
  if missing.isEmpty then []
  else [Rule.D417.with [Text.join ", " (missing.mergeSort fun a b => !Text.before b a), d.name]]

def missingParameters (documented : List Text) (s : Subject) : Except CheckFault (List Finding) :=
  match s with
  | .module _ => .ok []
  | .definition _ _ d =>
    if d.kind.isClass then .ok []
    else
      match Grammar.parameterNamesOf s.source.stripLeft with
      | .error fault => .error (.signature fault)
      | .ok names => .ok (undocumented documented names d)

def numpySection (subject : Subject) (indent : Text) (s : Section) : Outcome :=
  let name := s.name.title
  let suffix := if (headerSuffix s).isEmpty then [] else [Rule.D406.with [name, s.line.strip]]
  commonSection Section.numpyNames indent s ++ (Outcome.ofList suffix ++
    if name = "Parameters".toList then
      Outcome.ofExcept (missingParameters (documentedParameters s) subject) else {})

def googleSection (subject : Subject) (indent : Text) (s : Section) : Outcome :=
  let name := s.name.title
  let suffix := if headerSuffix s == ":".toList then []
    else [Rule.D416.with [name ++ ":".toList, s.line.strip]]
  commonSection Section.googleNames indent s ++ (Outcome.ofList suffix ++
    if name = "Args".toList ∨ name = "Arguments".toList then
      Outcome.ofExcept (do missingParameters (← describedArguments s) subject) else {})

def ofStyle (check : Section → Outcome) : Option (List Section) → Outcome
  | none => .ofFault .noName
  | some found => Outcome.concat (found.map check)

/-- Checks the sections of one style; those of the other style only where there are none. -/
def all (subject : Subject) (d : Docstring) : Outcome :=
  let lines := Text.splitOn '\n' d.text
  if lines.length < 2 then {}
  else
    let indent := (surroundings subject d).indent
    match Section.sectionsOf? Section.numpyNames lines with
    | some [] =>
      ofStyle (googleSection subject indent) (Section.sectionsOf? Section.googleNames lines)
    | found => ofStyle (numpySection subject indent) found

end DocLint.Check.Sections
