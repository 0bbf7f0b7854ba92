import DocLint.Text.Strip
import DocLint.Token
import DocLint.Token.Lexeme

/-!
The token stream of a source text, line by line. Text that is no lexeme gives error tokens, so only
three things stop the stream early: a string or statement that is still open at the end, and a line
whose indentation matches no line around it.
-/

set_option autoImplicit false

namespace DocLint

/-- Why a token stream ends before the end of the text. -/
inductive ScanFault where
  | openString
  | openStatement
  | inconsistentDedent
  deriving DecidableEq, Repr

/-- The tokens of a text and, if the stream breaks off, the cause. -/
structure Scan where
  tokens : List Token
  fault : Option ScanFault
  deriving DecidableEq, Repr

namespace Scan

structure OpenString where
  start : Position
  text : Text
  lines : Text
  quote : Char
  triple : Bool

structure State where
  indents : List Nat := []
  depth : Int := 0
  continued : Bool := false
  openString : Option OpenString := none
  /-- A string under way must end each line with a backslash. Set by a one-line string and
  cleared when a continued string ends. -/
  mustContinue : Bool := false

/-- The width of leading blanks: tabulators advance to a multiple of eight, a form feed starts
again. -/
def indentWidth (blanks : Text) : Nat :=
  blanks.foldl (fun w c => if c = ' ' then w + 1 else if c = '\t' then (w / 8 + 1) * 8 else 0) 0

inductive Effect where
  | token (kind : TokenKind)
  | bracket (change : Int)
  | joinLines
  | openTriple (quote : Char)
  | openSingle (quote : Char)

def classify (depth : Int) (lexeme : Text) : Effect :=
  match lexeme with
  | [] => .token .errorToken
  | initial :: _ =>
    if Text.isAsciiDigit initial ∨ (initial = '.' ∧ lexeme ≠ "." ∧ lexeme ≠ "...") then .token .number
    else if initial = '\n' ∨ initial = '\r' then .token (if depth > 0 then .nl else .newline)
    else if initial = '#' then .token .comment
    else
      match Lexeme.literalMark? lexeme with
      | some (_, q :: rest) =>
        if rest = [q, q] then .openTriple q
        else if lexeme.getLast? = some '\n' then .openSingle q
        else .token .string
      | _ =>
        if Text.isIdentifierStart initial then .token .name
        else if initial = '\\' then .joinLines
        else if "([\x7b".toList.contains initial then .bracket 1
        else if ")]\x7d".toList.contains initial then .bracket (-1)
        else .token .op

/-- Tokens of the rest of a line, from column `col` on. The fuel bounds their number. -/
def lineTokens (row : Nat) (line : Text) : Nat → State → Nat → Text → List Token × State
  | 0, s, _, _ => ([], s)
  | fuel + 1, s, col, rest =>
    let blanks := rest.takeWhile Lexeme.isBlank
    let body := rest.dropWhile Lexeme.isBlank
    let start := col + blanks.length
    let tokenTo := fun (kind : TokenKind) (value : Text) (first : Nat) =>
      ({ kind, value, start := ⟨row, first⟩, stop := ⟨row, first + value.length⟩, line } : Token)
    match rest with
    | [] => ([], s)
    | c :: cs =>
      if body.isEmpty then ([], s)
      else
        match Lexeme.next body with
        | none =>
          let (ts, s) := lineTokens row line fuel s (col + 1) cs
          (tokenTo .errorToken [c] col :: ts, s)
        | some (lexeme, after) =>
          let stop := start + lexeme.length
          match classify s.depth lexeme with
          | .token kind =>
            let (ts, s) := lineTokens row line fuel s stop after
            (tokenTo kind lexeme start :: ts, s)
          | .bracket change =>
            let (ts, s) := lineTokens row line fuel { s with depth := s.depth + change } stop after
            (tokenTo .op lexeme start :: ts, s)
          | .joinLines => lineTokens row line fuel { s with continued := true } stop after
          | .openTriple quote =>
            match Lexeme.stringEnd quote true after with
            | some (ending, after) =>
              let value := lexeme ++ ending
              let (ts, s) := lineTokens row line fuel s (start + value.length) after
              (tokenTo .string value start :: ts, s)
            | none => ([], { s with openString := some ⟨⟨row, start⟩, body, line, quote, true⟩ })
          | .openSingle quote =>
            ([], { s with openString := some ⟨⟨row, start⟩, body, line, quote, false⟩,
                          mustContinue := true })

def closeIndents (width : Nat) (row col : Nat) (line : Text) :
    List Nat → List Token × List Nat × Option ScanFault
  | [] => ([], [], none)
  | i :: outer =>
    if width < i then
      if width ∈ outer ∨ width = 0 then
        let dedent : Token :=
          { kind := .dedent, value := [], start := ⟨row, col⟩, stop := ⟨row, col⟩, line }
        let (ts, rest) := closeIndents width row col line outer
        (dedent :: ts, rest)
      else ([], i :: outer, some .inconsistentDedent)
    else ([], i :: outer, none)

inductive LineEnd where
  | go (s : State)
  | finish (s : State)
  | stop (fault : ScanFault)

def statementLine (s : State) (row : Nat) (line : Text) : List Token × LineEnd :=
  let blanks := line.takeWhile Lexeme.isBlank
  let body := line.dropWhile Lexeme.isBlank
  let col := blanks.length
  match body with
  | [] => ([], .finish s)
  | c :: _ =>
    if c = '#' ∨ c = '\r' ∨ c = '\n' then
      let remark := if c = '#' then Text.stripRightOf "\r\n" body else []
      let stop := col + remark.length
      let remarkToken : List Token := if c = '#' then
        [{ kind := .comment, value := remark, start := ⟨row, col⟩, stop := ⟨row, stop⟩, line }] else []
      let nl : Token :=
        { kind := .nl, value := line.drop stop, start := ⟨row, stop⟩, stop := ⟨row, line.length⟩, line }
      (remarkToken ++ [nl], .go s)
    else
      let width := indentWidth blanks
      let opened := width > s.indents.headD 0
      let indents := if opened then width :: s.indents else s.indents
      let indentToken : List Token := if opened then
        [{ kind := .indent, value := blanks, start := ⟨row, 0⟩, stop := ⟨row, col⟩, line }] else []
      match closeIndents width row col line indents with
      | (dedents, _, some fault) => (indentToken ++ dedents, .stop fault)
      | (dedents, indents, none) =>
        let (ts, s) := lineTokens row line (body.length + 1) { s with indents } col body
        (indentToken ++ dedents ++ ts, .go s)

def stringLine (s : State) (open_ : OpenString) (row : Nat) (line : Text) : List Token × State :=
  match Lexeme.stringEnd open_.quote open_.triple line with
  | some (ending, after) =>
    let token : Token :=
      { kind := .string, value := open_.text ++ ending, start := open_.start,
        stop := ⟨row, ending.length⟩, line := open_.lines ++ line }
    let (ts, s) := lineTokens row line (after.length + 1)
      { s with openString := none, mustContinue := false } ending.length after
    (token :: ts, s)
  | none =>
    if s.mustContinue && !("\\\n".toList.isSuffixOf line || "\\\r\n".toList.isSuffixOf line) then
      let token : Token :=
        { kind := .errorToken, value := open_.text ++ line, start := open_.start,
          stop := ⟨row, line.length⟩, line := open_.lines }
      ([token], { s with openString := none })
    else
      let longer := { open_ with text := open_.text ++ line, lines := open_.lines ++ line }
      ([], { s with openString := some longer })

def line (s : State) (row : Nat) (text : Text) : List Token × LineEnd :=
  match s.openString with
  | some open_ =>
    let (ts, s) := stringLine s open_ row text
    (ts, .go s)
  | none =>
    if s.depth = 0 && !s.continued then statementLine s row text
    else
      let (ts, s) := lineTokens row text (text.length + 1) { s with continued := false } 0 text
      (ts, .go s)

def closing (s : State) (row : Nat) (last : Text) : List Token :=
  let unended := match last.getLast? with
    | none => false
    | some c => c ≠ '\r' && c ≠ '\n' && !"#".toList.isPrefixOf (Text.strip last)
  let newline : List Token := if unended then
    [{ kind := .newline, value := [], start := ⟨row - 1, last.length⟩,
       stop := ⟨row - 1, last.length + 1⟩, line := [] }] else []
  let mark := fun kind => ({ kind, value := [], start := ⟨row, 0⟩, stop := ⟨row, 0⟩, line := [] } : Token)
  newline ++ s.indents.map (fun _ => mark .dedent) ++ [mark .endMarker]

def linesFrom (s : State) (row : Nat) (last : Text) : List Text → Scan
  | [] =>
    if s.openString.isSome then ⟨[], some .openString⟩
    else if s.depth = 0 && !s.continued then ⟨closing s row last, none⟩
    else ⟨[], some .openStatement⟩
  | text :: rest =>
    match line s row text with
    | (ts, .go s) =>
      let scan := linesFrom s (row + 1) text rest
      ⟨ts ++ scan.tokens, scan.fault⟩
    | (ts, .finish s) => ⟨ts ++ closing s row last, none⟩
    | (ts, .stop fault) => ⟨ts, some fault⟩

def ofText (source : Text) : Scan := linesFrom {} 1 [] source.lines

end Scan

end DocLint
