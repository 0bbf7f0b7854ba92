import DocLint.Mood.Stem
import DocLint.Pattern.Read
import DocLint.Resources
import DocLint.Text.CharName
import DocLint.Text.Quoted

/-!
Resources that are at hand everywhere: a table of names, one more encoding, English stems, and patterns. Of
the fields of formatted literals, only numbers have a value.
-/

set_option autoImplicit false

namespace DocLint.Resources.Builtin

/-- The characters of the bytes from 0x80 to 0x9F, as far as they are no control characters. -/
def westernMarks : List Nat :=
  [0x20AC, 0x81, 0x201A, 0x192, 0x201E, 0x2026, 0x2020, 0x2021, 0x2C6, 0x2030, 0x160, 0x2039, 0x152, 0x8D, 0x17D,
    0x8F, 0x90, 0x2018, 0x2019, 0x201C, 0x201D, 0x2022, 0x2013, 0x2014, 0x2DC, 0x2122, 0x161, 0x203A, 0x153, 0x9D,
    0x17E, 0x178]

def westernChar? (b : UInt8) : Option Char :=
  match (if b < 0x80 then none else westernMarks[b.toNat - 0x80]?) with
  | none => some (Char.ofNat b.toNat)
  | some n => if n < 0x100 then none else some (Char.ofNat n)

def isMark (c : Char) : Bool := c.toNat = 123 || c.toNat = 125

def isNumeral (t : Text) : Bool := !t.isEmpty && t.all Char.isDigit && t.head? != some '0'

def formatted (body : Text) (fields : List Text) : Except Text Text :=
  match fields.find? (!isNumeral ·) with
  | some t =>
    let name := (t.dropWhile (!Text.isWord ·)).takeWhile Text.isWord
    .error ("name ".toList ++ Text.quoted name ++ " is not defined".toList)
  | none => .ok (body.filter (!isMark ·))

def charNamed? (name : Text) : Option Char := Text.charOfName? (name.map Text.upperAscii)

scoped instance resources : Resources where
  charNamed? := Text.charOfName?
  codec? := fun name =>
    if (Text.literals ["cp1252", "1252", "windows_1252"]).contains name then some (.text (·.mapM westernChar?))
    else none
  formatted := fun _ => formatted
  stem := Mood.stem
  matcher? := fun t => (Pattern.Source.ofText? charNamed? t).map Pattern.Source.matcher

end DocLint.Resources.Builtin
