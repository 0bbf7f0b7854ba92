import DocLint.Resources
import DocLint.Text.Case
import DocLint.Text.Strip
import DocLint.Token.Lexeme

/-!
String literals: what a quoted source text stands for.
-/

set_option autoImplicit false

namespace DocLint

inductive LiteralFault where
  | truncatedEscape
  | illegalCodePoint
  | malformedName
  | unknownName
  | nonAsciiByte
  | notALiteral
  deriving DecidableEq, Repr

/-- A string literal taken apart: what its mark says, and the text between the quotes. -/
structure Literal where
  isBytes : Bool
  isRaw : Bool
  isFormatted : Bool
  body : Text
  deriving DecidableEq, Repr

namespace Literal

variable [Resources]

def unquote (t : Text) : Text :=
  let width := match Lexeme.tripleQuote? t with
    | some _ => if t.length ≥ 6 then 3 else 1
    | none => 1
  (t.drop width).take (t.length - 2 * width)

/-- Takes a literal apart. Line ends inside it count as line feeds. -/
def ofText? (t : Text) : Option Literal :=
  match Lexeme.literalMark? t with
  | some (mark, quoted) =>
    some
      { isBytes := mark.any fun c => c == 'b' || c == 'B'
        isRaw := mark.any fun c => c == 'r' || c == 'R'
        isFormatted := mark.any fun c => c == 'f' || c == 'F'
        body := unquote (Text.unifyNewlines quoted) }
  | none => none

def simpleEscape? (c : Char) : Option Char :=
  match c with
  | '\\' => some '\\'
  | '\'' => some '\''
  | '"' => some '"'
  | 'a' => some (Char.ofNat 7)
  | 'b' => some (Char.ofNat 8)
  | 'f' => some (Char.ofNat 12)
  | 'n' => some '\n'
  | 'r' => some '\r'
  | 't' => some '\t'
  | 'v' => some (Char.ofNat 11)
  | _ => none

def isOctal (c : Char) : Bool := '0' ≤ c && c ≤ '7'

def octalValue (t : Text) : Nat := t.foldl (fun n c => 8 * n + (c.toNat - '0'.toNat)) 0

def octalDigits (t : Text) : Text := (t.take 3).takeWhile isOctal

def hexEscape? (n : Nat) (t : Text) : Option Nat :=
  let digits := t.take n
  if digits.length = n ∧ digits.all fun c => (Text.hexDigit? c).isSome then some (Text.hexValue digits)
  else none

/-- A character by its code point. A code point without a character is shown by the replacement
character. -/
def charOfCode (n : Nat) : Char := if n.isValidChar then Char.ofNat n else Char.ofNat 0xFFFD

/-- The character of a name, which holds letters, digits, blanks and hyphens, in whatever case. -/
def namedChar? (name : Text) : Option Char :=
  if name.all fun c => c.isAlphanum || c = ' ' || c = '-' then Resources.charNamed? (name.map Text.upperAscii)
  else none

/-- What an escape behind its backslash stands for, and how many characters it takes. A backslash
at the very end stands for itself. -/
def textEscape (t : Text) : Except LiteralFault (Text × Nat) :=
  match t with
  | [] => .ok (['\\'], 0)
  | c :: cs =>
    if c = '\n' then .ok ([], 1)
    else
      match simpleEscape? c with
      | some d => .ok ([d], 1)
      | none =>
        let coded := fun n => match hexEscape? n cs with
          | some code =>
            if code > 0x10FFFF then .error .illegalCodePoint else .ok ([charOfCode code], n + 1)
          | none => .error .truncatedEscape
        if isOctal c then
          let digits := octalDigits t
          .ok ([charOfCode (octalValue digits)], digits.length)
        else if c = 'x' then coded 2
        else if c = 'u' then coded 4
        else if c = 'U' then coded 8
        else if c = 'N' then
          match cs with
          | b :: inside =>
            if b = Char.ofNat 123 ∧ inside.contains (Char.ofNat 125) then
              let name := inside.takeWhile (· ≠ Char.ofNat 125)
              if name.isEmpty then .error .malformedName
              else
                match namedChar? name with
                | some d => .ok ([d], name.length + 3)
                | none => .error .unknownName
            else .error .malformedName
          | [] => .error .malformedName
        else .ok (['\\', c], 1)

def decodeFrom : Nat → Text → Except LiteralFault Text
  | _, [] => .ok []
  | skip + 1, _ :: cs => decodeFrom skip cs
  | 0, c :: cs =>
    if c = '\\' then
      match textEscape cs with
      | .ok (t, n) => (decodeFrom n cs).map (t ++ ·)
      | .error e => .error e
    else (decodeFrom 0 cs).map (c :: ·)

def decodeText (raw : Bool) (body : Text) : Except LiteralFault Text :=
  if raw then .ok body else decodeFrom 0 body

/-- What an escape of a byte literal stands for, and how many characters it takes. -/
def byteEscape (t : Text) : Except LiteralFault (List UInt8 × Nat) :=
  match t with
  | [] => .error .truncatedEscape
  | c :: cs =>
    if c = '\n' then .ok ([], 1)
    else
      match simpleEscape? c with
      | some d => .ok ([d.toNat.toUInt8], 1)
      | none =>
        if isOctal c then
          let digits := octalDigits t
          .ok ([(octalValue digits).toUInt8], digits.length)
        else if c = 'x' then
          match hexEscape? 2 cs with
          | some code => .ok ([code.toUInt8], 3)
          | none => .error .truncatedEscape
        else .ok (['\\'.toNat.toUInt8, c.toNat.toUInt8], 1)

def decodeBytesFrom : Nat → Text → Except LiteralFault (List UInt8)
  | _, [] => .ok []
  | skip + 1, _ :: cs => decodeBytesFrom skip cs
  | 0, c :: cs =>
    if c = '\\' then
      match byteEscape cs with
      | .ok (bs, n) => (decodeBytesFrom n cs).map (bs ++ ·)
      | .error e => .error e
    else (decodeBytesFrom 0 cs).map (c.toNat.toUInt8 :: ·)

def decodeBytes (raw : Bool) (body : Text) : Except LiteralFault (List UInt8) :=
  if !body.all Text.isAscii then .error .nonAsciiByte
  else if raw then .ok (body.map (·.toNat.toUInt8))
  else decodeBytesFrom 0 body

end Literal

inductive LiteralValue where
  | text (t : Text)
  | bytes (b : List UInt8)
  deriving DecidableEq, Repr

def Literal.value [Resources] (l : Literal) : Except LiteralFault LiteralValue :=
  if l.isFormatted then .error .notALiteral
  else if l.isBytes then (Literal.decodeBytes l.isRaw l.body).map .bytes
  else (Literal.decodeText l.isRaw l.body).map .text

end DocLint
