import DocLint.Text.Property

/-!
Values of configuration tables, and tables as lists of keys with values in the order in which the
keys came.
-/

set_option autoImplicit false

namespace DocLint.Toml

/-- A decimal number: a sign, digits without zeros at their ends, and the power of ten of the digit
behind them. -/
structure Decimal where
  isNegative : Bool
  digits : Text
  power : Int
  deriving DecidableEq, Repr

namespace Decimal

def isZero (d : Decimal) : Bool := d.digits.isEmpty

def zeros (n : Int) : Text := List.replicate n.toNat '0'

def pointed : Text → Text
  | [] => ['0']
  | [d] => [d]
  | d :: ds => d :: '.' :: ds

/-- The number in full, if its first digit is less than sixteen places before the point and less than
five behind it, and with an exponent otherwise. -/
def shown (d : Decimal) : Text :=
  let first := d.power + d.digits.length - 1
  let body : Text :=
    if d.isZero then "0.0"
    else if first < -4 ∨ 16 ≤ first then
      let exponent := Text.ofNat first.natAbs
      pointed d.digits ++ "e".toList ++ (if first < 0 then "-".toList else "+".toList) ++
        (if exponent.length < 2 then '0' :: exponent else exponent)
    else if first < 0 then "0.".toList ++ zeros (-first - 1) ++ d.digits
    else if 0 ≤ d.power then d.digits ++ zeros d.power ++ ".0".toList
    else d.digits.take (first.toNat + 1) ++ '.' :: d.digits.drop (first.toNat + 1)
  (if d.isNegative then "-".toList else []) ++ body

end Decimal

inductive Float where
  | decimal (d : Decimal)
  | infinite (isNegative : Bool)
  | undefined
  deriving DecidableEq, Repr

namespace Float

def shown : Float → Text
  | .decimal d => d.shown
  | .infinite true => "-inf"
  | .infinite false => "inf"
  | .undefined => "nan"

end Float

inductive MomentKind where
  | date | datetime | time
  deriving DecidableEq, Repr

inductive Value where
  | text (t : Text)
  | integer (n : Int)
  | boolean (b : Bool)
  | float (f : Float)
  | moment (kind : MomentKind) (shown : Text)
  | array (items : List Value)
  | table (entries : List (Text × Value))
  deriving Repr, Inhabited

abbrev Table := List (Text × Value)

namespace Value

/-- Whether a value counts as given: it is not empty, not zero and not false. -/
def isGiven : Value → Bool
  | .text t => !t.isEmpty
  | .integer n => n != 0
  | .boolean b => b
  | .float (.decimal d) => !d.isZero
  | .float _ | .moment _ _ => true
  | .array items => !items.isEmpty
  | .table entries => !entries.isEmpty

def shown : Value → Text
  | .text t => t
  | .integer n => Text.ofInt n
  | .boolean true => "True"
  | .boolean false => "False"
  | .float f => f.shown
  | .moment _ t => t
  | .array _ | .table _ => []

end Value

namespace Table

/-- The table with a key set to a value, in its old place if it has one. -/
def put (key : Text) (v : Value) : Table → Table
  | [] => [(key, v)]
  | (k, w) :: rest => if k = key then (key, v) :: rest else (k, w) :: put key v rest

def merge (a b : Table) : Table := b.foldl (fun t (k, v) => put k v t) a

/-- Changes the table at a path, making the tables on the way. Through arrays the path leads to their
last table, if `throughArrays` is set. Nothing but tables may stand on the way. -/
def changeAt (throughArrays : Bool) (f : Table → Option Table) : List Text → Table → Option Table
  | [], t => f t
  | k :: ks, t =>
    match t.lookup k with
    | none => (changeAt throughArrays f ks []).map fun s => put k (.table s) t
    | some (.table s) => (changeAt throughArrays f ks s).map fun s => put k (.table s) t
    | some (.array items) =>
      match throughArrays, items.getLast? with
      | true, some (.table s) =>
        (changeAt throughArrays f ks s).map fun s => put k (.array (items.dropLast ++ [.table s])) t
      | _, _ => none
    | some _ => none

def setNew (key : Text) (v : Value) (t : Table) : Option Table :=
  match t.lookup key with
  | none => some (put key v t)
  | some _ => none

def appendTable (key : Text) (t : Table) : Option Table :=
  match t.lookup key with
  | none => some (put key (.array [.table []]) t)
  | some (.array items) => some (put key (.array (items ++ [.table []])) t)
  | some _ => none

end Table

end DocLint.Toml
