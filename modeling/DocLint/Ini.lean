import DocLint.Text.Case
import DocLint.Text.Strip

/-!
Settings in sections: lines of keys with values, under section headers between brackets. A deeper
indented line continues a value, and `#` or `;` opens a comment.
-/

set_option autoImplicit false

namespace DocLint

inductive IniFault where
  | noHeader
  | repeatedSection
  | repeatedKey
  | malformed
  deriving DecidableEq, Repr

structure Ini where
  sections : List (Text × List (Text × Text))
  deriving DecidableEq, Repr

namespace Ini

def commonSection : Text := "DEFAULT"

/-- The places of a character in a line, each with whether it would open a comment there. -/
def places (mark : Char) (line : Text) : List (Nat × Bool) :=
  let before := ' ' :: line
  ((before.zip line).zipIdx.filter fun ((_, c), _) => c = mark).map
    fun ((previous, _), i) => (i, i == 0 || Text.isSpace previous)

/-- The places of the two marks are gone through in step, and the first step with an opening decides. -/
def firstOpening : List (Nat × Bool) → List (Nat × Bool) → Option Nat
  | [], bs => (bs.find? (·.2)).map (·.1)
  | as, [] => (as.find? (·.2)).map (·.1)
  | (i, a) :: as, (j, b) :: bs =>
    match a, b with
    | true, true => some (min i j)
    | true, false => some i
    | false, true => some j
    | false, false => firstOpening as bs

def commentStart (line : Text) : Option Nat :=
  match line.strip with
  | '#' :: _ | ';' :: _ => some 0
  | _ => firstOpening (places '#' line) (places ';' line)

/-- The name of a section in its header: what stands between the first bracket and the last one. -/
def header? : Text → Option Text
  | '[' :: rest =>
    let name := Text.beforeLast ']' rest
    if name.isEmpty then none else some name
  | _ => none

def keyValue? (line : Text) : Option (Text × Text) :=
  let isSign := fun (c : Char) => c = '=' || c = ':'
  match line.dropWhile fun c => !isSign c with
  | [] => none
  | _ :: value => some ((Text.stripRight (line.takeWhile fun c => !isSign c)).lower, Text.strip value)

/-- A reading under way: the lines of each value so far, where new lines go, and whether some line
was malformed. -/
structure Reading where
  sections : List (Text × List (Text × List Text)) := []
  current : Option Text := none
  key : Option Text := none
  indent : Nat := 0
  isMalformed : Bool := false

namespace Reading

def change (r : Reading) (f : List (Text × List Text) → List (Text × List Text)) : Reading :=
  { r with sections := r.sections.map fun (name, values) =>
      if some name = r.current then (name, f values) else (name, values) }

def openKey? (r : Reading) : Option Text := r.key.filter (!·.isEmpty)

def extend (r : Reading) (line : Text) : Reading :=
  match r.openKey? with
  | none => r
  | some k => r.change fun values => values.map fun (key, lines) =>
      if key = k then (key, lines ++ [line]) else (key, lines)

def beginSection (r : Reading) (name : Text) : Except IniFault Reading :=
  if (r.sections.any fun s => s.1 == name) then
    if name = commonSection then .ok { r with current := some name, key := none }
    else .error .repeatedSection
  else .ok { r with sections := r.sections ++ [(name, [])], current := some name, key := none }

def hasKey (r : Reading) (key : Text) : Bool :=
  r.sections.any fun (name, values) => some name == r.current && values.any fun v => v.1 == key

/-- Begins a value. A value without a key is kept apart but makes the text malformed. -/
def beginValue (r : Reading) (key value : Text) : Except IniFault Reading :=
  if r.hasKey key then .error .repeatedKey
  else
    let added := r.change fun values => values ++ [(key, [value])]
    .ok { added with key := some key, isMalformed := r.isMalformed || key.isEmpty }

def line (r : Reading) (line : Text) : Except IniFault Reading :=
  let start := commentStart line
  let value := Text.strip (line.take (start.getD line.length))
  let indent := (Text.leadingSpace line).length
  if value.isEmpty then .ok (if start.isSome then r else r.extend [])
  else if r.openKey?.isSome && r.indent < indent then .ok (r.extend value)
  else
    let r := { r with indent }
    match header? value with
    | some name => r.beginSection name
    | none =>
      if r.current.isNone then .error .noHeader
      else
        match keyValue? value with
        | some (key, v) => r.beginValue key v
        | none => .ok { r with isMalformed := true }

end Reading

/-- Reads a text. A malformed line is reported last, so that other faults come first. -/
def ofText (t : Text) : Except IniFault Ini := do
  let r ← t.lines.foldlM Reading.line {}
  if r.isMalformed then throw .malformed
  return { sections := r.sections.map fun (name, values) =>
    (name, values.map fun (key, lines) => (key, Text.stripRight (Text.join "\n" lines))) }

def hasSection (ini : Ini) (name : Text) : Bool :=
  name != commonSection && ini.sections.any fun s => s.1 == name

def valuesOf (ini : Ini) (name : Text) : List (Text × Text) := (ini.sections.lookup name).getD []

/-- The values of a section, and behind them the common ones that it does not set itself. -/
def values (ini : Ini) (name : Text) : List (Text × Text) :=
  let own := ini.valuesOf name
  own ++ (ini.valuesOf commonSection).filter fun (key, _) => !own.any fun v => v.1 == key

def switch? (value : Text) : Option Bool :=
  let word := value.lower
  if (Text.literals ["1", "yes", "true", "on"]).contains word then some true
  else if (Text.literals ["0", "no", "false", "off"]).contains word then some false
  else none

end Ini

end DocLint
