import DocLint.Text

/-!
Sets of code points given by ranges, and mappings of code points, read from a compact hexadecimal
notation.
-/

set_option autoImplicit false

namespace DocLint.Text

abbrev Ranges := List (Nat × Nat)

def hexDigit? (c : Char) : Option Nat :=
  if '0' ≤ c ∧ c ≤ '9' then some (c.toNat - '0'.toNat)
  else if 'a' ≤ c ∧ c ≤ 'f' then some (c.toNat - 'a'.toNat + 10)
  else if 'A' ≤ c ∧ c ≤ 'F' then some (c.toNat - 'A'.toNat + 10)
  else none

def hexValue (t : Text) : Nat :=
  t.foldl (fun n c => match hexDigit? c with | some d => 16 * n + d | none => n) 0

def blankSeparated (t : Text) : List Text :=
  ((t.map fun c => if c = '\n' then ' ' else c).splitOn ' ').filter (! ·.isEmpty)

def rangeOfText (t : Text) : Nat × Nat :=
  match cut? "..".toList t with
  | some (a, b) => (hexValue a, hexValue b)
  | none => (hexValue t, hexValue t)

def Ranges.ofText (t : Text) : Ranges := (blankSeparated t).map rangeOfText

def Ranges.contains (r : Ranges) (c : Char) : Bool :=
  r.any fun (a, b) => a ≤ c.toNat && c.toNat ≤ b

/-- Every `step`-th code point from `first` to `last` and what it stands for. A single target
moves along with the code point; several targets belong to a single code point. -/
structure MappingEntry where
  first : Nat
  last : Nat
  step : Nat
  targets : List Nat

abbrev Mapping := List MappingEntry

def MappingEntry.ofText (t : Text) : MappingEntry :=
  let (source, targets) := cut ['='] t
  let (range, step) := cut ['/'] source
  let (first, last) := rangeOfText range
  { first, last, step := max 1 (hexValue step), targets := (targets.splitOn '+').map hexValue }

def Mapping.ofText (t : Text) : Mapping := (blankSeparated t).map MappingEntry.ofText

def MappingEntry.image? (e : MappingEntry) (n : Nat) : Option (List Nat) :=
  if e.first ≤ n ∧ n ≤ e.last ∧ (n - e.first) % e.step = 0 then
    match e.targets with
    | [target] => some [target + (n - e.first)]
    | targets => some targets
  else none

def Mapping.image? (m : Mapping) (c : Char) : Option Text :=
  (m.findSome? (·.image? c.toNat)).map (·.map Char.ofNat)

end DocLint.Text
