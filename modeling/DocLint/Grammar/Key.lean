import DocLint.Literal

/-!
Literal keys of mapping patterns by their values, so that a key that comes twice is found.
-/

set_option autoImplicit false

namespace DocLint.Grammar

variable [Resources]

/-- A number as a sign, digits without zeros at their ends, and the power of ten of the last one. Zero
has no digits and no sign. -/
structure Amount where
  isNegative : Bool
  digits : Text
  power : Int
  deriving DecidableEq, Repr

namespace Amount

def zero : Amount := { isNegative := false, digits := [], power := 0 }

def ofDigits (isNegative : Bool) (digits : Text) (power : Int) : Amount :=
  let significant := digits.dropWhile (· = '0')
  let short := (significant.reverse.dropWhile (· = '0')).reverse
  if short.isEmpty then zero
  else { isNegative, digits := short, power := power + (significant.length - short.length : Nat) }

def ofNat (isNegative : Bool) (n : Nat) : Amount := ofDigits isNegative (Text.ofNat n) 0

def digitValue (c : Char) : Nat := if c.isDigit then c.toNat - 48 else c.toNat - 87

def natOf (base : Nat) (digits : Text) : Nat := digits.foldl (fun n c => base * n + digitValue c) 0

def exponentOf : Text → Int
  | '-' :: ds => -(natOf 10 ds : Int)
  | '+' :: ds => natOf 10 ds
  | ds => natOf 10 ds

def ofText (isNegative : Bool) : Text → Amount
  | '0' :: 'x' :: ds => ofNat isNegative (natOf 16 ds)
  | '0' :: 'o' :: ds => ofNat isNegative (natOf 8 ds)
  | '0' :: 'b' :: ds => ofNat isNegative (natOf 2 ds)
  | t =>
    let (mantissa, exponent) := Text.cut "e" t
    let (whole, fraction) := Text.cut "." mantissa
    ofDigits isNegative (whole ++ fraction) (exponentOf exponent - fraction.length)

end Amount

inductive Key where
  | nothing
  | number (real imaginary : Amount)
  | text (t : Text)
  | bytes (b : List UInt8)
  | attribute
  | formatted
  deriving DecidableEq, Repr

namespace Key

def ofNumber (isNegative : Bool) (t : Text) : Key :=
  let plain := (t.filter (· ≠ '_')).map Char.toLower
  if plain.getLast? = some 'j' then .number .zero (Amount.ofText isNegative plain.dropLast)
  else .number (Amount.ofText isNegative plain) .zero

def sum : Key → Key → Key
  | .number real _, .number _ imaginary => .number real imaginary
  | k, _ => k

def ofSwitch (b : Bool) : Key := .number (Amount.ofNat false b.toNat) .zero

def ofLiterals : List LiteralValue → Key
  | [] => .text []
  | .text t :: rest =>
    match ofLiterals rest with
    | .text more => .text (t ++ more)
    | k => k
  | .bytes b :: rest =>
    match ofLiterals rest with
    | .bytes more => .bytes (b ++ more)
    | .text [] => .bytes b
    | k => k

def ofStrings (texts : List Text) : Key :=
  let values := texts.mapM fun t => do (← Literal.ofText? t).value.toOption
  match values with
  | some vs => ofLiterals vs
  | none => .formatted

/-- Whether keys can stand together: none is formatted and none with a known value comes twice. -/
def areDistinct : List Key → Bool
  | [] => true
  | .formatted :: _ => false
  | .attribute :: ks => areDistinct ks
  | k :: ks => !ks.contains k && areDistinct ks

end Key

end DocLint.Grammar
