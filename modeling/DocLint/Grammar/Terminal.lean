import DocLint.Literal

/-!
Terminal symbols of the grammar. In contrast to the token stream, comments and blank lines leave no
trace here, and every irregularity (a stray character, a number with letters behind it, brackets
that do not match, tabulators that make an indentation ambiguous, a literal without a value) refuses
the text.
-/

set_option autoImplicit false

namespace DocLint.Grammar

variable [Resources]

inductive TerminalKind where
  | name | keyword | number | string | op | newline | indent | dedent | endMarker
  deriving DecidableEq, Repr

structure Terminal where
  kind : TerminalKind
  text : Text
  line : Nat
  deriving DecidableEq, Repr

def keywords : List Text := Text.literals
  ["False", "None", "True", "and", "as", "assert", "async", "await", "break", "class", "continue",
    "def", "del", "elif", "else", "except", "finally", "for", "from", "global", "if", "import",
    "in", "is", "lambda", "nonlocal", "not", "or", "pass", "raise", "return", "try", "while",
    "with", "yield"]

def operators : List Text := "<>".toList :: Lexeme.operators

def maxIndents : Nat := 100

def maxBrackets : Nat := 200

/-- Line ends become line feeds, and the last line gets one. A carriage return with its line feed
at the very end leaves two. -/
def lineFeeds (t : Text) : Text :=
  let unified := Text.unifyNewlines t
  if "\r\n".toList.isSuffixOf t || unified.getLast? ≠ some '\n' then unified ++ ['\n'] else unified

def isNameStart (c : Char) : Bool := Text.isAsciiLetter c || c == '_' || !Text.isAscii c

def isNameChar (c : Char) : Bool := isNameStart c || Text.isAsciiDigit c

/-- The text behind digits, with single underscores between them. One of these stands before the
text if `scored`. -/
def digitsTail (isDigit : Char → Bool) (scored : Bool) : Text → Option Text
  | [] => if scored then none else some []
  | c :: cs =>
    if isDigit c then digitsTail isDigit false cs
    else if scored then none
    else if c = '_' then digitsTail isDigit true cs
    else some (c :: cs)

def decimalTail : Text → Option Text := digitsTail Text.isAsciiDigit false

def wordsAfterNumber : List Text := ["and", "else", "for", "or", "not"]

def endsNumber (t : Text) : Bool :=
  match t with
  | [] => true
  | c :: cs =>
    let word := t.takeWhile isNameChar
    wordsAfterNumber.contains word ||
      (c == 'i' && (cs.head?.any fun d => d == 'f' || d == 'n' || d == 's')) || !isNameChar c

def ended (t : Text) : Option Text := if endsNumber t then some t else none

/-- The text behind an imaginary mark, if there is one, at the end of a number. -/
def numberMark : Text → Option Text
  | [] => some []
  | c :: cs => if c = 'j' ∨ c = 'J' then ended cs else ended (c :: cs)

def signedExponent : Text → Option Text
  | [] => none
  | d :: cs => if Text.isAsciiDigit d then decimalTail cs >>= numberMark else none

/-- The letter `e` ends the number if no digit follows. -/
def unsignedExponent (e : Char) : Text → Option Text
  | [] => ended [e]
  | d :: cs => if Text.isAsciiDigit d then decimalTail cs >>= numberMark else ended (e :: d :: cs)

def exponentBehind (e : Char) : Text → Option Text
  | [] => ended [e]
  | s :: cs => if s = '+' ∨ s = '-' then signedExponent cs else unsignedExponent e (s :: cs)

/-- The text behind an exponent and mark, if there are such, at the end of a number. -/
def numberExponent : Text → Option Text
  | [] => some []
  | e :: cs => if e = 'e' ∨ e = 'E' then exponentBehind e cs else numberMark (e :: cs)

def numberFraction : Text → Option Text
  | [] => some []
  | d :: cs =>
    if Text.isAsciiDigit d then decimalTail cs >>= numberExponent else numberExponent (d :: cs)

def numberPoint : Text → Option Text
  | [] => some []
  | c :: cs => if c = '.' then numberFraction cs else numberExponent (c :: cs)

def basedEnd : Text → Option Text
  | [] => some []
  | c :: cs => if Text.isAsciiDigit c then none else ended (c :: cs)

def basedDigits (isDigit : Char → Bool) : Text → Option Text
  | [] => none
  | d :: cs => if isDigit d then digitsTail isDigit false cs >>= basedEnd else none

def basedNumber (isDigit : Char → Bool) : Text → Option Text
  | [] => none
  | c :: cs => if c = '_' then basedDigits isDigit cs else basedDigits isDigit (c :: cs)

/-- The text behind zeros that open a decimal number, with single underscores between its digits. -/
def zeros (scored : Bool) : Text → Option Text
  | [] => if scored then none else some []
  | c :: cs =>
    if c = '0' then zeros false cs
    else if scored then if Text.isAsciiDigit c then some (c :: cs) else none
    else if c = '_' then zeros true cs
    else some (c :: cs)

/-- The end of a number that opens with the digit zero; one that is not zero must be no whole
number. -/
def zeroMark (nonzero : Bool) : Text → Option Text
  | [] => if nonzero then none else some []
  | c :: cs =>
    if c = 'j' ∨ c = 'J' then ended cs else if nonzero then none else ended (c :: cs)

def zeroExponent (nonzero : Bool) : Text → Option Text
  | [] => zeroMark nonzero []
  | e :: cs => if e = 'e' ∨ e = 'E' then exponentBehind e cs else zeroMark nonzero (e :: cs)

def zeroPoint (nonzero : Bool) : Text → Option Text
  | [] => zeroMark nonzero []
  | c :: cs => if c = '.' then numberFraction cs else zeroExponent nonzero (c :: cs)

def behindZeros : Text → Option Text
  | [] => some []
  | c :: cs =>
    if Text.isAsciiDigit c then decimalTail cs >>= zeroPoint true else zeroPoint false (c :: cs)

def behindZero : Text → Option Text
  | [] => some []
  | m :: cs =>
    if m = 'x' ∨ m = 'X' then basedNumber (fun c => (Text.hexDigit? c).isSome) cs
    else if m = 'o' ∨ m = 'O' then basedNumber (fun c => '0' ≤ c ∧ c ≤ '7') cs
    else if m = 'b' ∨ m = 'B' then basedNumber (fun c => c = '0' ∨ c = '1') cs
    else zeros false (m :: cs) >>= behindZeros

def numberRest? : Text → Option Text
  | [] => none
  | c :: cs =>
    if c = '.' then numberFraction cs
    else if c = '0' then behindZero cs
    else decimalTail cs >>= numberPoint

/-- The quotes end a string where they stand as they opened it, a single one on the same line. -/
def quoted? (t : Text) : Option (Text × Text) :=
  match Lexeme.tripleQuote? t, t with
  | some (q, rest), _ =>
    (Lexeme.stringRest (fun escaped => if escaped then [] else [[q, q, q]]) (fun _ _ => false) false rest).map
      fun (a, b) => (q :: q :: q :: a, b)
  | none, q :: rest =>
    (Lexeme.stringRest (fun escaped => if escaped then [] else [[q]]) (fun escaped c => !escaped && c == '\n')
      false rest).map fun (a, b) => (q :: a, b)
  | none, [] => none

/-- A string at the beginning of a text. The case of the letters before its quotes says nothing, so
they are given in lower case. -/
def string? (t : Text) : Option (Text × Text) := do
  let (mark, opened) ← Lexeme.literalMark? t
  let (quoted, rest) ← quoted? opened
  return (mark.map Text.lowerAscii ++ quoted, rest)

def isString (t : Text) : Bool := (string? (Text.unifyNewlines t)).any fun (_, rest) => rest.isEmpty

/-- Whether a literal has a value. What is inside a formatted one is read elsewhere. -/
def isLiteral (t : Text) : Bool := (Literal.ofText? t).any fun l => l.isFormatted || l.value.isOk

/-- The indentation of a line: its width, its width with tabulators of one column, and the width
before the first joined line, or zero. -/
structure Indent where
  width : Nat := 0
  narrow : Nat := 0
  joined : Nat := 0
  deriving DecidableEq, Repr

/-- Measures leading blanks, passing over joined lines; gives the text behind them and how many
lines were joined. A backslash must join a line that exists. -/
def measure (i : Indent) (joinedLines : Nat) : Text → Option (Indent × Nat × Text)
  | [] => some (i, joinedLines, [])
  | c :: cs =>
    if c = ' ' then measure { i with width := i.width + 1, narrow := i.narrow + 1 } joinedLines cs
    else if c = '\t' then
      measure { i with width := (i.width / 8 + 1) * 8, narrow := i.narrow + 1 } joinedLines cs
    else if c = Char.ofNat 12 then measure { i with width := 0, narrow := 0 } joinedLines cs
    else if c = '\\' then
      match cs with
      | [] => none
      | d :: ds =>
        if d = '\n' ∧ ds ≠ [] then
          measure { i with joined := if i.joined = 0 then i.width else i.joined } (joinedLines + 1) ds
        else none
    else some (i, joinedLines, c :: cs)

structure LexState where
  indents : List (Nat × Nat) := []
  brackets : Text := []
  line : Nat := 1

def leaveIndents (width : Nat) : List (Nat × Nat) → Nat × List (Nat × Nat)
  | [] => (0, [])
  | i :: outer =>
    if width < i.1 then
      let (n, rest) := leaveIndents width outer
      (n + 1, rest)
    else (0, i :: outer)

def indentTerminals (s : LexState) (width narrow : Nat) : Option (List Terminal × LexState) :=
  let top := s.indents.headD (0, 0)
  if width = top.1 then if narrow = top.2 then some ([], s) else none
  else if width > top.1 then
    if s.indents.length + 2 > maxIndents ∨ narrow ≤ top.2 then none
    else some ([⟨.indent, [], s.line⟩], { s with indents := (width, narrow) :: s.indents })
  else
    let (n, rest) := leaveIndents width s.indents
    if rest.headD (0, 0) = (width, narrow) then
      some (List.replicate n ⟨.dedent, [], s.line⟩, { s with indents := rest })
    else none

def closes (opening closing : Char) : Bool :=
  (opening, closing) ∈ [('(', ')'), ('[', ']'), (Char.ofNat 123, Char.ofNat 125)]

def trackBracket (s : LexState) (c : Char) : Option LexState :=
  if "([\x7b".toList.contains c then
    if s.brackets.length ≥ maxBrackets then none else some { s with brackets := c :: s.brackets }
  else if ")]\x7d".toList.contains c then
    match s.brackets with
    | [] => none
    | o :: outer => if closes o c then some { s with brackets := outer } else none
  else some s

/-- One terminal at the beginning of a text that opens with neither blank, comment, line end nor
backslash. -/
def terminalAt (s : LexState) (t : Text) : Option ((Terminal × LexState) × Text) :=
  match string? t with
  | some (text, rest) =>
    if isLiteral text then
      some ((⟨.string, text, s.line⟩, { s with line := s.line + text.count '\n' }), rest)
    else none
  | none =>
    match t with
    | [] => none
    | c :: cs =>
      if (Lexeme.literalMark? t).isSome then none
      else if isNameStart c then
        let word := t.takeWhile isNameChar
        if Text.isIdentifier word then
          let kind := if keywords.contains word then .keyword else .name
          some ((⟨kind, word, s.line⟩, s), t.dropWhile isNameChar)
        else none
      else if Text.isAsciiDigit c ∨ (c = '.' ∧ cs.head?.any Text.isAsciiDigit) then
        (numberRest? t).map fun rest =>
          ((⟨.number, t.take (t.length - rest.length), s.line⟩, s), rest)
      else
        match operators.find? (·.isPrefixOf t) with
        | some op => (trackBracket s c).map fun s => ((⟨.op, op, s.line⟩, s), t.drop op.length)
        | none => none

/-- What a step of reading gives: terminals, and where reading goes on, unless it ends. A line may begin
there. -/
structure Lexed where
  terminals : List Terminal := []
  next : Option (LexState × Bool × Text)

/-- A step into a line that is not empty. -/
def enterLine (s : LexState) (indent : Indent) (t : Text) : Option Lexed :=
  if s.brackets.isEmpty then do
    let width := if indent.joined = 0 then indent.width else indent.joined
    let narrow := if indent.joined = 0 then indent.narrow else indent.joined
    let (terminals, s) ← indentTerminals s width narrow
    return { terminals, next := some (s, false, t) }
  else some { next := some (s, false, t) }

/-- A step at the first character of a line that is no blank. -/
def lineStep (s : LexState) (indent : Indent) : Text → Option Lexed
  | [] => enterLine s indent []
  | c :: cs =>
    if c = '\n' then some { next := some ({ s with line := s.line + 1 }, true, cs) }
    else if c = '#' then some { next := some (s, true, cs.dropWhile (· ≠ '\n')) }
    else enterLine s indent (c :: cs)

/-- A step at a character that is no blank. -/
def innerStep (s : LexState) : Text → Option Lexed
  | [] =>
    if s.brackets.isEmpty then some { terminals := [⟨.endMarker, [], s.line⟩], next := none } else none
  | c :: cs =>
    if c = '#' then some { next := some (s, false, cs.dropWhile (· ≠ '\n')) }
    else if c = '\n' then
      some { terminals := if s.brackets.isEmpty then [⟨.newline, [], s.line⟩] else []
             next := some ({ s with line := s.line + 1 }, true, cs) }
    else if c = '\\' ∧ cs.head? = some '\n' then
      if cs.tail.isEmpty then none
      else some { next := some ({ s with line := s.line + 1 }, false, cs.tail) }
    else
      (terminalAt s (c :: cs)).map fun ((terminal, s), rest) =>
        { terminals := [terminal], next := some (s, false, rest) }

def lexStep (s : LexState) (fresh : Bool) (t : Text) : Option Lexed :=
  if fresh then (measure {} 0 t).bind fun (indent, joinedLines, body) =>
    lineStep { s with line := s.line + joinedLines } indent body
  else innerStep s (t.dropWhile Lexeme.isBlank)

/-- The terminals of a text behind the reversed terminals `done`. `fresh` says that a line
begins. -/
def terminalsFrom : Nat → LexState → Bool → List Terminal → Text → Option (List Terminal)
  | 0, _, _, _, _ => none
  | fuel + 1, s, fresh, done, t => do
    let step ← lexStep s fresh t
    let done := step.terminals.reverse ++ done
    match step.next with
    | none => some done.reverse
    | some (s, fresh, rest) => terminalsFrom fuel s fresh done rest

def terminals? (source : Text) : Option (List Terminal) :=
  if source.contains (Char.ofNat 0) then none
  else
    let t := lineFeeds source
    terminalsFrom (2 * t.length + 2) {} true [] t

end DocLint.Grammar
