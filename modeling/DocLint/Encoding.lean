import DocLint.Resources
import DocLint.Text.Case
import DocLint.Text.Strip

/-!
Text as bytes: decoding, and the line of a source file that says how it is encoded.
-/

set_option autoImplicit false

namespace DocLint

inductive Encoding where
  | utf8 | latin1 | ascii
  | named (name : Text)
  deriving DecidableEq, Repr

inductive DecodeFault where
  | declaration
  | codec
  | bytes
  deriving DecidableEq, Repr

namespace Encoding

variable [Resources]

/-- Reads UTF-8 in the middle of a code point: `missing` bytes are to come behind the bits `n`, and
the code point must be `least` or more, so that it has one form only. -/
def utf8From : Nat → Nat → Nat → Bytes → Option Text
  | 0, _, _, [] => some []
  | _ + 1, _, _, [] => none
  | 0, _, _, b :: bs =>
    let n := b.toNat
    if n < 0x80 then (utf8From 0 0 0 bs).map (Char.ofNat n :: ·)
    else if n < 0xC0 then none
    else if n < 0xE0 then utf8From 1 (n - 0xC0) 0x80 bs
    else if n < 0xF0 then utf8From 2 (n - 0xE0) 0x800 bs
    else if n < 0xF8 then utf8From 3 (n - 0xF0) 0x10000 bs
    else none
  | missing + 1, n, least, b :: bs =>
    if 0x80 ≤ b.toNat ∧ b.toNat < 0xC0 then
      let m := 64 * n + (b.toNat - 0x80)
      if missing > 0 then utf8From missing m least bs
      else if least ≤ m ∧ m.isValidChar then (utf8From 0 0 0 bs).map (Char.ofNat m :: ·)
      else none
    else none

def utf8? (bytes : Bytes) : Option Text := utf8From 0 0 0 bytes

def decoder? : Encoding → Option (Bytes → Option Text)
  | .utf8 => some utf8?
  | .latin1 => some fun bytes => some (bytes.map fun b => Char.ofNat b.toNat)
  | .ascii => some fun bytes =>
    if bytes.all (· < 0x80) then some (bytes.map fun b => Char.ofNat b.toNat) else none
  | .named name =>
    match Resources.codec? name with
    | some (.text decode?) => some decode?
    | _ => none

def names : Encoding → List Text
  | .utf8 => Text.literals ["utf_8", "u8", "utf", "utf8", "utf8_ucs2", "utf8_ucs4", "cp65001"]
  | .latin1 => Text.literals
    ["latin_1", "8859", "cp819", "csisolatin1", "ibm819", "iso8859", "iso8859_1", "iso_8859_1",
      "iso_8859_1_1987", "iso_ir_100", "l1", "latin", "latin1"]
  | .ascii => Text.literals
    ["ascii", "646", "ansi_x3.4_1968", "ansi_x3_4_1968", "ansi_x3.4_1986", "cp367", "csascii",
      "ibm367", "iso646_us", "iso_646.irv_1991", "iso_ir_6", "us", "us_ascii"]
  | .named name => [name]

/-- The name with every run of other characters than letters, digits and dots as one underscore. -/
def foldName : Text → Text
  | [] => []
  | [c] => [if c.isAlphanum || c = '.' then c.toLower else '_']
  | c :: d :: cs =>
    let plain := fun (x : Char) => x.isAlphanum || x = '.'
    if plain c then c.toLower :: foldName (d :: cs)
    else if plain d then '_' :: foldName (d :: cs)
    else foldName (d :: cs)

def ofName? (name : Text) : Option Encoding :=
  match [utf8, latin1, ascii].find? fun e => e.names.contains (foldName name) with
  | some e => some e
  | none => (Resources.codec? (foldName name)).map fun _ => .named (foldName name)

def standardName (name : Text) : Text :=
  let opening := (name.take 12).map fun c => if c = '_' then '-' else c.toLower
  let isVariantOf := fun (t : Text) => opening == t || (t ++ ['-']).isPrefixOf opening
  if isVariantOf "utf-8" then "utf-8"
  else if (Text.literals ["latin-1", "iso-8859-1", "iso-latin-1"]).any isVariantOf then "iso-8859-1"
  else name

def isNameChar (c : Char) : Bool := c.isAlphanum || c = '_' || c = '-' || c = '.'

def declaredIn : Text → Option Text
  | [] => none
  | c :: cs =>
    let here : Option Text :=
      if "coding".toList.isPrefixOf (c :: cs) then
        match (c :: cs).drop 6 with
        | mark :: rest =>
          let name := (rest.dropWhile fun x => x = ' ' || x = '\t').takeWhile isNameChar
          if (mark = ':' ∨ mark = '=') ∧ name ≠ [] then some name else none
        | [] => none
      else none
    match here with
    | some name => some name
    | none => declaredIn cs

def isIndent (c : Char) : Bool := c = ' ' || c = '\t' || c = '\x0c'

def declared? (line : Text) : Option Text :=
  match line.dropWhile isIndent with
  | '#' :: rest => declaredIn (rest.takeWhile (· ≠ '\n'))
  | _ => none

def firstLine (bytes : Bytes) : Bytes × Bytes :=
  let line := bytes.takeWhile (· ≠ 10)
  let rest := bytes.dropWhile (· ≠ 10)
  (line ++ rest.take 1, rest.drop 1)

/-- The declaration in a line, which must be UTF-8 and must not contradict a mark. -/
def ofLine (marked : Bool) (line : Bytes) : Except DecodeFault (Option Encoding) :=
  match utf8? line with
  | none => .error .declaration
  | some t =>
    match declared? t with
    | none => .ok none
    | some given =>
      let name := standardName given
      match ofName? name with
      | none => .error .declaration
      | some e => if marked && name ≠ "utf-8" then .error .declaration else .ok (some e)

def isBlankLine (line : Bytes) : Bool :=
  match line.dropWhile fun b => isIndent (Char.ofNat b.toNat) with
  | [] => true
  | b :: _ => b = 35 || b = 13 || b = 10

def mark : Bytes := [0xEF, 0xBB, 0xBF]

def ofSource (marked : Bool) (bytes : Bytes) : Except DecodeFault Encoding := do
  let (first, rest) := firstLine bytes
  if first.isEmpty then return .utf8
  match ← ofLine marked first with
  | some e => return e
  | none =>
    let (second, _) := firstLine rest
    if !isBlankLine first || second.isEmpty then return .utf8
    return (← ofLine marked second).getD .utf8

end Encoding

def sourceText [Resources] (bytes : Bytes) : Except DecodeFault Text := do
  let marked := Encoding.mark.isPrefixOf bytes
  let body := if marked then bytes.drop 3 else bytes
  let encoding ← Encoding.ofSource marked body
  match encoding.decoder? with
  | none => throw .codec
  | some decode? =>
    match decode? body with
    | some t => return t.unifyNewlines
    | none => throw .bytes

def plainText? (bytes : Bytes) : Option Text := (Encoding.utf8? bytes).map Text.unifyNewlines

end DocLint
