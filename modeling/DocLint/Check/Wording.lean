import DocLint.Finding
import DocLint.Mood

/-!
Checks on quotes and on the words of a docstring.
-/

set_option autoImplicit false

namespace DocLint.Check.Wording

variable [Resources]

def hasDocstring (s : Subject) : Bool := s.docstring.isSome

def missingRule (s : Subject) : Option Rule :=
  match s with
  | .module m => some (if m.isPackage then .D104 else .D100)
  | .definition _ _ d =>
    match d.kind with
    | .plainClass => some .D101
    | .nestedClass => some .D106
    | .nestedFunction => some .D103
    | .method =>
      if d.isMagic then some .D105
      else if d.isInit then some .D107
      else if d.isOverload then none
      else some .D102
    | .function => if d.isOverload then none else some .D103

def missing (searchPath : List Path) (s : Subject) : Except CheckFault (List Finding) :=
  if hasDocstring s then .ok []
  else
    match s.isPublic searchPath with
    | .error e => .error (.publicity e)
    | .ok isPublic => .ok (if isPublic then ((missingRule s).map Rule.plain).toList else [])

def isBlankByte (b : UInt8) : Bool := b == 32 || (9 ≤ b && b ≤ 13)

def empty (d : Docstring) : Except CheckFault (List Finding) := do
  let isBlank := match ← d.value with
    | .text t => Text.isBlank t
    | .bytes b => b.all isBlankByte
  return if isBlank then [Rule.D419.plain] else []

def unmarked (t : Text) : Text :=
  let t := match t with
    | c :: cs => if c = 'u' ∨ c = 'U' then cs else t
    | [] => []
  match t with
  | c :: cs => if c = 'r' ∨ c = 'R' then cs else t
  | [] => []

def opensTriple (quote : Char) (t : Text) : Bool :=
  match t with
  | a :: b :: c :: d :: _ => a = quote && b = quote && c = quote && d ≠ quote
  | _ => false

def tripleDouble : Text := "\"\"\""

/-- The quote to be used around a text: single ones if the text itself holds triple double ones. -/
def quoteFor (content : Text) : Char := if Text.containsText tripleDouble content then '\'' else '"'

def quotesOf (t : Text) : Except CheckFault Text :=
  match t with
  | q :: _ => if Lexeme.isQuote q then .ok (t.takeWhile (· = q)) else .error .noQuotes
  | [] => .error .noQuotes

def quotes (d : Docstring) : Except CheckFault (List Finding) := do
  let quote := quoteFor (← d.content)
  if opensTriple quote (unmarked d.text) then return []
  else return [Rule.D300.with [← quotesOf (unmarked d.text)]]

/-- Whether a backslash stands before something that needs one, line ends and the escapes by name
or number apart. -/
def hasBackslash (t : Text) : Bool :=
  (t.zip (t.drop 1)).any fun (a, b) => a = '\\' && b ≠ '\n' && b ≠ 'u' && b ≠ 'N'

def backslashes (d : Docstring) : List Finding :=
  let isRaw := "r".toList.isPrefixOf d.text || "ur".toList.isPrefixOf d.text
  if hasBackslash d.text && !isRaw then [Rule.D301.plain] else []

def summaryLine (content : Text) : Text := content.strip.takeWhile (· ≠ '\n')

def summaryEnd (r : Rule) (endings : List Char) (d : Docstring) : Except CheckFault (List Finding) := do
  match (summaryLine (← d.content)).getLast? with
  | none => throw .noWord
  | some c => return if endings.contains c then [] else [r.with [[c]]]

def alphanumeric (t : Text) : Text := t.filter Text.isAlnum

def firstWord? (d : Docstring) : Except CheckFault (Option Text) := do
  match ← d.value with
  | .text t =>
    if t.strip.isEmpty then return none
    else
      match t.strip.words with
      | word :: _ => return some word
      | [] => throw .noWord
  | .bytes b => if b.all isBlankByte then return none else throw .byteDocstring

def judgedWord (f : Text → List Finding) (d : Docstring) : Except CheckFault (List Finding) :=
  (firstWord? d).map fun word => (word.map fun w => f (alphanumeric w)).getD []

def ofMood (word : Text) : Mood.Verdict → List Finding
  | .fine => []
  | .unfit => [Rule.D401b.with [word]]
  | .instead form => [Rule.D401.with [form.capitalize, word]]

def mood (word : Text) : List Finding := ofMood word (Mood.judge word.lower)

def imperativeMood (properties : List Text) (f : Definition) (d : Docstring) :
    Except CheckFault (List Finding) :=
  if f.isTest || f.isProperty properties then .ok [] else judgedWord mood d

def signature (f : Definition) : Docstring → Except CheckFault (List Finding) :=
  Docstring.judged fun t =>
    let line := (summaryLine t).filter (· ≠ ' ')
    if Text.containsText (f.name ++ "(".toList) line then [Rule.D402.plain] else []

def capitalized (d : Docstring) : Except CheckFault (List Finding) := do
  match ← d.value with
  | .text t =>
    match t.words.head? with
    | none => throw .noWord
    | some word =>
      if word == word.upper || !word.all (fun c => Text.isAsciiLetter c || c = '\'') ||
          word == word.capitalize then
        return []
      else return [Rule.D403.with [word.capitalize, word]]
  | .bytes b =>
    match b.dropWhile isBlankByte with
    | [] => throw .noWord
    | bs =>
      let word := bs.takeWhile (!isBlankByte ·)
      if word.any fun x => 97 ≤ x && x ≤ 122 then throw .byteDocstring else return []

def overload (f : Definition) : List Finding := if f.isOverload then [Rule.D418.plain] else []

def startsWithThis : Docstring → Except CheckFault (List Finding) := judgedWord fun word =>
  if word.lower == "this".toList then [Rule.D404.plain] else []

end DocLint.Check.Wording
