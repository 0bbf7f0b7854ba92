import DocLint.Text.Property

/-!
Quoted text: a text between quotes, with escapes for the quote, the backslash and all that has no
visible form.
-/

set_option autoImplicit false

namespace DocLint.Text

def hexDigits (width n : Nat) : Text :=
  let digits := Nat.toDigits 16 n
  List.replicate (width - digits.length) '0' ++ digits

def quotedChar (quote c : Char) : Text :=
  let n := c.toNat
  if c = quote ∨ c = '\\' then ['\\', c]
  else if c = '\n' then "\\n"
  else if c = '\r' then "\\r"
  else if c = '\t' then "\\t"
  else if isPrintable c then [c]
  else if n < 0x100 then "\\x".toList ++ hexDigits 2 n
  else if n < 0x10000 then "\\u".toList ++ hexDigits 4 n
  else "\\U".toList ++ hexDigits 8 n

/-- Single quotes are used unless the text holds some and no double ones. -/
def quoteMark (t : Text) : Char := if t.contains '\'' && !t.contains '"' then '"' else '\''

def quoted (t : Text) : Text :=
  let quote := quoteMark t
  quote :: t.flatMap (quotedChar quote) ++ [quote]

def quotedByte (quote : Char) (b : UInt8) : Text :=
  let n := b.toNat
  let c := Char.ofNat n
  if c = quote ∨ c = '\\' then ['\\', c]
  else if c = '\n' then "\\n"
  else if c = '\r' then "\\r"
  else if c = '\t' then "\\t"
  else if 32 ≤ n ∧ n < 127 then [c]
  else "\\x".toList ++ hexDigits 2 n

end DocLint.Text
