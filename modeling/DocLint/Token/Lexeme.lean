import DocLint.Text.Property

/-!
The longest lexemes at the beginning of a text: numbers, operators, strings and names. Each reader
gives the lexeme and the rest, or nothing.
-/

set_option autoImplicit false

namespace DocLint.Lexeme

abbrev Reader := Text → Option (Text × Text)

def isBlank (c : Char) : Bool := c = ' ' ∨ c = '\t' ∨ c = Char.ofNat 12

/-- The rest of a run of digits in which single underscores may stand between digits. -/
def digitsTail (isDigit : Char → Bool) : Text → Text × Text
  | '_' :: d :: cs =>
    if isDigit d then
      let (taken, rest) := digitsTail isDigit cs
      ('_' :: d :: taken, rest)
    else ([], '_' :: d :: cs)
  | d :: cs =>
    if isDigit d then
      let (taken, rest) := digitsTail isDigit cs
      (d :: taken, rest)
    else ([], d :: cs)
  | [] => ([], [])

def digits : Reader
  | d :: cs =>
    if Text.isAsciiDigit d then
      let (taken, rest) := digitsTail Text.isAsciiDigit cs
      some (d :: taken, rest)
    else none
  | [] => none

def exponent (t : Text) : Text × Text :=
  match t with
  | e :: cs =>
    if e = 'e' ∨ e = 'E' then
      let (sign, body) : Text × Text := match cs with
        | s :: ds => if s = '+' ∨ s = '-' then ([s], ds) else ([], cs)
        | [] => ([], [])
      match digits body with
      | some (ds, rest) => (e :: sign ++ ds, rest)
      | none => ([], t)
    else ([], t)
  | [] => ([], [])

def pointFloat : Reader
  | [] => none
  | c :: cs =>
    if c = '.' then
      match digits cs with
      | some (fraction, rest) =>
        let (e, rest) := exponent rest
        some ('.' :: fraction ++ e, rest)
      | none => none
    else
      match digits (c :: cs) with
      | some (whole, p :: rest) =>
        if p = '.' then
          let (fraction, rest) := (digits rest).getD ([], rest)
          let (e, rest) := exponent rest
          some (whole ++ '.' :: fraction ++ e, rest)
        else none
      | _ => none

def exponentFloat : Reader := fun t =>
  match digits t with
  | some (whole, rest) =>
    match exponent rest with
    | ([], _) => none
    | (e, rest) => some (whole ++ e, rest)
  | none => none

def float : Reader := fun t => (pointFloat t).orElse fun _ => exponentFloat t

def imaginary : Reader := fun t =>
  let marked : Reader → Option (Text × Text) := fun r =>
    match r t with
    | some (n, j :: rest) => if j = 'j' ∨ j = 'J' then some (n ++ [j], rest) else none
    | _ => none
  (marked digits).orElse fun _ => marked float

def basedDigits (isDigit : Char → Bool) (mark : Char) (t : Text) : Option (Text × Text) :=
  match digitsTail isDigit t with
  | ([], _) => none
  | (ds, rest) => some ('0' :: mark :: ds, rest)

def based : Reader
  | [] => none
  | m :: cs =>
    if m = 'x' ∨ m = 'X' then basedDigits (fun c => (Text.hexDigit? c).isSome) m cs
    else if m = 'b' ∨ m = 'B' then basedDigits (fun c => c = '0' ∨ c = '1') m cs
    else if m = 'o' ∨ m = 'O' then basedDigits (fun c => '0' ≤ c ∧ c ≤ '7') m cs
    else none

def integer : Reader
  | [] => none
  | d :: cs =>
    if d = '0' then (based cs).orElse fun _ =>
      let (zeros, rest) := digitsTail (· = '0') cs
      some ('0' :: zeros, rest)
    else digits (d :: cs)

def number : Reader := fun t =>
  ((imaginary t).orElse fun _ => float t).orElse fun _ => integer t

def operators : List Text := Text.literals
  ["**=", "...", "//=", "<<=", ">>=", "!=", "%=", "&=", "**", "*=", "+=", "-=", "->", "//", "/=",
    ":=", "<<", "<=", "==", ">=", ">>", "@=", "^=", "|=", "%", "&", "(", ")", "*", "+", ",", "-",
    ".", "/", ":", ";", "<", "=", ">", "@", "[", "]", "^", "\x7b", "|", "\x7d", "~"]

/-- The first of the texts that is there. -/
def oneOf (ws : List Text) : Reader := fun t =>
  (ws.find? (·.isPrefixOf t)).map fun w => (w, t.drop w.length)

def operator : Reader := oneOf operators

def isQuote (c : Char) : Bool := c = '"' ∨ c = '\''

def literalMarks : List Text := [[], "b", "r", "u", "f", "br", "rb", "fr", "rf"]

def isLiteralMark (t : Text) : Bool :=
  literalMarks.contains (t.map fun c => if Text.isAsciiUpper c then Char.ofNat (c.toNat + 32) else c)

/-- A mark of `n` letters before an opening quote, and the text from the quote on. -/
def markOf? (t : Text) (n : Nat) : Option (Text × Text) :=
  match t.drop n with
  | q :: _ => if isQuote q && isLiteralMark (t.take n) then some (t.take n, t.drop n) else none
  | [] => none

/-- The letters before the opening quote of a string, and the text from the quote on. -/
def literalMark? (t : Text) : Option (Text × Text) := [0, 1, 2].findSome? (markOf? t)

def tripleQuote? : Text → Option (Char × Text)
  | a :: b :: c :: rest => if isQuote a ∧ a = b ∧ b = c then some (a, rest) else none
  | _ => none

/-- The rest of a string up to one of the texts that close it, which may be others behind a backslash
(`escaped`), unless it is broken off before. -/
def stringRest (closings : Bool → List Text) (broken : Bool → Char → Bool) (escaped : Bool) : Reader
  | [] => none
  | c :: cs => (oneOf (closings escaped) (c :: cs)).orElse fun _ =>
    if broken escaped c then none
    else (stringRest closings broken (!escaped && c == '\\') cs).map fun (a, b) => (c :: a, b)

/-- The end of a string that was opened by `quote`: the text up to the closing quote and the rest.
The closing quote must come before a backslash at the end of a line; `triple` strings end at three
quotes. -/
def stringEnd (quote : Char) (triple : Bool) : Reader :=
  stringRest (fun escaped => if escaped then [] else [if triple then [quote, quote, quote] else [quote]])
    (fun escaped c => escaped && c == '\n') false

/-- The rest of a string of one line behind its opening quote: up to the closing quote, or to a
backslash at the end of the line. -/
def lineString (quote : Char) : Reader :=
  stringRest (fun escaped => if escaped then ["\n", "\r\n"] else [[quote]])
    (fun escaped c => !escaped && c == '\n') false

def string : Reader := fun t =>
  match literalMark? t with
  | some (mark, q :: rest) =>
    (lineString q rest).map fun (body, rest) => (mark ++ q :: body, rest)
  | _ => none

def word : Reader := fun t =>
  match t.takeWhile Text.isWord with
  | [] => none
  | w => some (w, t.dropWhile Text.isWord)

def comment : Reader
  | [] => none
  | c :: cs =>
    if c = '#' then
      let inside := fun c => c ≠ '\r' ∧ c ≠ '\n'
      some ('#' :: cs.takeWhile (inside ·), cs.dropWhile (inside ·))
    else none

def lineEnd : Reader := oneOf ["\n", "\r\n"]

def continuation : Reader
  | [] => none
  | c :: cs => if c = '\\' then (lineEnd cs).map fun (e, rest) => ('\\' :: e, rest) else none

def tripleOpening : Reader := fun t =>
  match literalMark? t with
  | some (mark, quoted) => (tripleQuote? quoted).map fun (q, rest) => (mark ++ [q, q, q], rest)
  | none => none

/-- The lexeme at the beginning of a text that opens with neither blank nor end. -/
def next : Reader := fun t =>
  [continuation, comment, tripleOpening, number, lineEnd, operator, string, word].findSome? (· t)

end DocLint.Lexeme
