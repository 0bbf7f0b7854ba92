import DocLint.Text.Property.Word
import DocLint.Text.Property.Identifier
import DocLint.Text.Property.Printable

/-!
Character classes of source text. The first 128 code points are decided by rule, the others by
table, so that statements about plain text need no table.
-/

set_option autoImplicit false

namespace DocLint.Text

def isSpace (c : Char) : Bool :=
  let n := c.toNat
  if n < 128 then (9 ≤ n && n ≤ 13) || (28 ≤ n && n ≤ 32)
  else n == 0x85 || n == 0xA0 || n == 0x1680 || (0x2000 ≤ n && n ≤ 0x200A) || n == 0x2028 ||
    n == 0x2029 || n == 0x202F || n == 0x205F || n == 0x3000

def isLineBreak (c : Char) : Bool :=
  let n := c.toNat
  (10 ≤ n && n ≤ 13) || (28 ≤ n && n ≤ 30) || n == 0x85 || n == 0x2028 || n == 0x2029

def isAsciiLower (c : Char) : Bool := 'a' ≤ c && c ≤ 'z'

def isAsciiUpper (c : Char) : Bool := 'A' ≤ c && c ≤ 'Z'

def isAsciiLetter (c : Char) : Bool := isAsciiLower c || isAsciiUpper c

def isAsciiDigit (c : Char) : Bool := '0' ≤ c && c ≤ '9'

def isAscii (c : Char) : Bool := c.toNat < 128

def isAlnum (c : Char) : Bool :=
  if isAscii c then isAsciiLetter c || isAsciiDigit c else Property.alnumRanges.contains c

def isWord (c : Char) : Bool := c == '_' || isAlnum c

def isIdentifierStart (c : Char) : Bool :=
  if isAscii c then isAsciiLetter c || c == '_' else Property.identifierStartRanges.contains c

def isIdentifierContinue (c : Char) : Bool :=
  if isAscii c then isAsciiLetter c || isAsciiDigit c || c == '_'
  else Property.identifierContinueRanges.contains c

def isPrintable (c : Char) : Bool :=
  if isAscii c then 32 ≤ c.toNat && c.toNat < 127 else Property.printableRanges.contains c

/-- A nonempty text of identifier characters with a proper beginning. -/
def isIdentifier : Text → Bool
  | [] => false
  | c :: cs => isIdentifierStart c && cs.all isIdentifierContinue

end DocLint.Text
