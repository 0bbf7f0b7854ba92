import DocLint.Text.Strip
import DocLint.Toml.Value

/-!
Reading strings, numbers and moments. A reader takes a value off the front of a text and returns what
is left.
-/

set_option autoImplicit false

namespace DocLint.Toml

abbrev Reader (α : Type) := Text → Option (α × Text)

def isBlankChar (c : Char) : Bool := c = ' ' || c = '\t'

def isControl (c : Char) : Bool := (c.toNat < 32 && c ≠ '\t') || c.toNat = 127

/-! ### Strings -/

def literalString : Reader Text := fun t =>
  match Text.cut? "'" t with
  | some (body, rest) => if body.any isControl then none else some (body, rest)
  | none => none

inductive StringMode where
  | plain
  | escaped
  | code (left n : Nat)
  | lineEnd
  | trim
  deriving DecidableEq, Repr

def hexValue? (c : Char) : Option Nat :=
  if '0' ≤ c ∧ c ≤ '9' then some (c.toNat - 48)
  else if 'a' ≤ c ∧ c ≤ 'f' then some (c.toNat - 87)
  else if 'A' ≤ c ∧ c ≤ 'F' then some (c.toNat - 55)
  else none

def escapeOf? : Char → Option Char
  | 'b' => some '\x08'
  | 't' => some '\t'
  | 'n' => some '\n'
  | 'f' => some '\x0c'
  | 'r' => some '\r'
  | '"' => some '"'
  | '\\' => some '\\'
  | _ => none

/-- The mode in which a character is read: trimming ends at the first one that is not blank. -/
def StringMode.at (m : StringMode) (c : Char) : StringMode :=
  match m with
  | .trim => if isBlankChar c || c = '\n' then .trim else .plain
  | m => m

/-- A string with escapes up to its quotes, which are three if it may span lines. -/
def escapedString (multiline : Bool) : StringMode → Reader Text
  | _, [] => none
  | mode, c :: cs =>
    match mode.at c with
    | .plain =>
      if c = '"' then
        if !multiline then some ([], cs)
        else if "\"\"".toList.isPrefixOf cs then some ([], cs.drop 2)
        else (escapedString multiline .plain cs).map fun (t, rest) => (c :: t, rest)
      else if c = '\\' then escapedString multiline .escaped cs
      else if isControl c && !(multiline && c = '\n') then none
      else (escapedString multiline .plain cs).map fun (t, rest) => (c :: t, rest)
    | .escaped =>
      if multiline && isBlankChar c then escapedString multiline .lineEnd cs
      else if multiline && c = '\n' then escapedString multiline .trim cs
      else if c = 'u' then escapedString multiline (.code 4 0) cs
      else if c = 'U' then escapedString multiline (.code 8 0) cs
      else
        match escapeOf? c with
        | some e => (escapedString multiline .plain cs).map fun (t, rest) => (e :: t, rest)
        | none => none
    | .code left n =>
      match hexValue? c with
      | none => none
      | some d =>
        let m := 16 * n + d
        if 1 < left then escapedString multiline (.code (left - 1) m) cs
        else if m.isValidChar then
          (escapedString multiline .plain cs).map fun (t, rest) => (Char.ofNat m :: t, rest)
        else none
    | .lineEnd =>
      if isBlankChar c then escapedString multiline .lineEnd cs
      else if c = '\n' then escapedString multiline .trim cs
      else none
    | .trim => escapedString multiline .trim cs

def moreQuotes (quote : Char) (t : Text) : Reader Text := fun rest =>
  let more := (rest.take 2).takeWhile (· = quote)
  some (t ++ more, rest.drop more.length)

def withoutFirstLineEnd : Text → Text
  | '\n' :: cs => cs
  | cs => cs

def multilineEscaped : Reader Text := fun t => do
  let (s, rest) ← escapedString true .plain (withoutFirstLineEnd t)
  moreQuotes '"' s rest

def multilineLiteral : Reader Text := fun t => do
  let (s, rest) ← Text.cut? "'''" (withoutFirstLineEnd t)
  if s.any fun c => isControl c && c ≠ '\n' then none else moreQuotes '\'' s rest

def string? : Text → Option (Option (Text × Text))
  | '"' :: cs =>
    if "\"\"".toList.isPrefixOf cs then some (multilineEscaped (cs.drop 2))
    else some (escapedString false .plain cs)
  | '\'' :: cs =>
    if "''".toList.isPrefixOf cs then some (multilineLiteral (cs.drop 2)) else some (literalString cs)
  | _ => none

/-! ### Numbers -/

def moreDigits (isDigit : Char → Bool) : Text → Text × Text
  | [] => ([], [])
  | [c] => if isDigit c then ([c], []) else ([], [c])
  | c :: d :: cs =>
    if isDigit c then
      let (ds, rest) := moreDigits isDigit (d :: cs)
      (c :: ds, rest)
    else if c = '_' && isDigit d then
      let (ds, rest) := moreDigits isDigit cs
      (d :: ds, rest)
    else ([], c :: d :: cs)

def digits? (isDigit : Char → Bool) : Reader Text
  | [] => none
  | c :: cs =>
    if isDigit c then
      let (ds, rest) := moreDigits isDigit cs
      some (c :: ds, rest)
    else none

def valueOf (base : Nat) (digits : Text) : Nat :=
  digits.foldl (fun n c => base * n + (hexValue? c).getD 0) 0

def basedNumber? : Reader Value
  | '0' :: m :: cs =>
    let read := fun (base : Nat) =>
      (digits? (fun c => (hexValue? c).any (· < base)) cs).map fun (ds, rest) =>
        (Value.integer (valueOf base ds), rest)
    if m = 'x' then read 16 else if m = 'b' then read 2 else if m = 'o' then read 8 else none
  | _ => none

def Float.ofParts (isNegative : Bool) (whole fraction : Text) (exponent : Int) : Float :=
  let significant := (whole ++ fraction).dropWhile (· = '0')
  let digits := Text.stripRightOf ['0'] significant
  let power := exponent - fraction.length + (significant.length - digits.length : Nat)
  let first := power + digits.length
  if digits.isEmpty || first < -323 then .decimal { isNegative, digits := [], power := 0 }
  else if 309 < first then .infinite isNegative
  else .decimal { isNegative, digits, power }

def sign : Text → Bool × Text
  | '+' :: cs => (false, cs)
  | '-' :: cs => (true, cs)
  | cs => (false, cs)

def fraction? : Reader Text
  | '.' :: cs => digits? Text.isAsciiDigit cs
  | _ => none

def exponent? : Reader Int
  | c :: cs =>
    if c = 'e' ∨ c = 'E' then
      let (isNegative, cs) := sign cs
      (digits? Text.isAsciiDigit cs).map fun (ds, rest) =>
        (if isNegative then -(valueOf 10 ds : Int) else valueOf 10 ds, rest)
    else none
  | [] => none

def decimalNumber? : Reader Value := fun t => do
  let (isNegative, t) := sign t
  let (whole, rest) ← match t with
    | '0' :: cs => some (['0'], cs)
    | t => digits? Text.isAsciiDigit t
  match fraction? rest, exponent? rest with
  | none, none =>
    let n := valueOf 10 whole
    return (.integer (if isNegative then -(n : Int) else n), rest)
  | none, some (e, rest) => return (.float (.ofParts isNegative whole [] e), rest)
  | some (f, rest), _ =>
    match exponent? rest with
    | none => return (.float (.ofParts isNegative whole f 0), rest)
    | some (e, rest) => return (.float (.ofParts isNegative whole f e), rest)

def specialFloat? : Reader Value := fun t =>
  let (isNegative, rest) := sign t
  if "inf".toList.isPrefixOf rest then some (.float (.infinite isNegative), rest.drop 3)
  else if "nan".toList.isPrefixOf rest then some (.float .undefined, rest.drop 3)
  else none

/-! ### Moments -/

def twoDigits? (least most : Nat) : Reader Text
  | a :: b :: rest =>
    let n := valueOf 10 [a, b]
    if Text.isAsciiDigit a && Text.isAsciiDigit b && least ≤ n && n ≤ most then some ([a, b], rest)
    else none
  | _ => none

def char? (c : Char) : Reader Unit
  | d :: rest => if d = c then some ((), rest) else none
  | [] => none

def parts (t : Text) : Text × Text :=
  match t with
  | '.' :: rest =>
    let ds := rest.takeWhile Text.isAsciiDigit
    if ds.isEmpty then ([], t)
    else
      let six := ds.take 6 ++ List.replicate (6 - ds.length) '0'
      (if six.all (· = '0') then [] else '.' :: six, rest.drop ds.length)
  | _ => ([], t)

def time? : Reader Text := fun t => do
  let (h, t) ← twoDigits? 0 23 t
  let (_, t) ← char? ':' t
  let (m, t) ← twoDigits? 0 59 t
  let (_, t) ← char? ':' t
  let (s, t) ← twoDigits? 0 59 t
  let (more, t) := parts t
  return (h ++ ':' :: m ++ ':' :: s ++ more, t)

def offset (t : Text) : Text × Text :=
  match t with
  | c :: rest =>
    if c = 'Z' ∨ c = 'z' then ("+00:00", rest)
    else if c = '+' ∨ c = '-' then
      let read : Option (Text × Text) := do
        let (h, r) ← twoDigits? 0 23 rest
        let (_, r) ← char? ':' r
        let (m, r) ← twoDigits? 0 59 r
        return (if h = "00" ∧ m = "00" then "+00:00" else c :: h ++ ':' :: m, r)
      read.getD ([], t)
    else ([], t)
  | [] => ([], [])

def daysIn (year month : Nat) : Nat :=
  if month = 2 then
    if year % 4 = 0 ∧ (year % 100 ≠ 0 ∨ year % 400 = 0) then 29 else 28
  else if month = 4 ∨ month = 6 ∨ month = 9 ∨ month = 11 then 30
  else 31

structure Day where
  year : Text
  month : Text
  day : Text

namespace Day

def exists? (d : Day) : Bool :=
  let year := valueOf 10 d.year
  0 < year && valueOf 10 d.day ≤ daysIn year (valueOf 10 d.month)

def shown (d : Day) : Text := d.year ++ '-' :: d.month ++ '-' :: d.day

end Day

def day? : Reader Day := fun t => do
  let year := t.take 4
  if year.length < 4 || !year.all Text.isAsciiDigit then none
  else
    let (_, t) ← char? '-' (t.drop 4)
    let (month, t) ← twoDigits? 1 12 t
    let (_, t) ← char? '-' t
    let (day, t) ← twoDigits? 1 31 t
    return ({ year, month, day }, t)

def timeOfDay? : Reader Text
  | c :: rest => if c = 'T' ∨ c = 't' ∨ c = ' ' then time? rest else none
  | [] => none

def moment? (t : Text) : Option (Option (Value × Text)) :=
  match day? t with
  | some (day, rest) =>
    let (kind, shown, rest) := match timeOfDay? rest with
      | some (time, rest) =>
        let (zone, rest) := offset rest
        (MomentKind.datetime, day.shown ++ ' ' :: time ++ zone, rest)
      | none => (MomentKind.date, day.shown, rest)
    some (if day.exists? then some (.moment kind shown, rest) else none)
  | none => (time? t).map fun (time, rest) => some (.moment .time time, rest)

end DocLint.Toml
