import DocLint.Toml.Scalar

/-!
Reading documents of tables: statements that set keys or open tables, each on a line of its own.
-/

set_option autoImplicit false

namespace DocLint.Toml

/-! ### Keys and space -/

def isBareKey (c : Char) : Bool := Text.isAsciiLetter c || Text.isAsciiDigit c || c = '-' || c = '_'

def skipBlank (t : Text) : Text := t.dropWhile isBlankChar

def skipComment : Text → Option Text
  | '#' :: cs =>
    if (cs.takeWhile (· ≠ '\n')).any isControl then none else some (cs.dropWhile (· ≠ '\n'))
  | t => some t

def skipLoose (inComment : Bool) : Text → Option Text
  | [] => some []
  | c :: cs =>
    if inComment then
      if c = '\n' then skipLoose false cs
      else if isControl c then none
      else skipLoose true cs
    else if isBlankChar c || c = '\n' then skipLoose false cs
    else if c = '#' then skipLoose true cs
    else some (c :: cs)

def keyPart : Reader Text
  | '\'' :: cs => literalString cs
  | '"' :: cs => escapedString false .plain cs
  | t =>
    let part := t.takeWhile isBareKey
    if part.isEmpty then none else some (part, t.drop part.length)

def keyFrom : Nat → Reader (List Text)
  | 0, _ => none
  | fuel + 1, t => do
    let (part, rest) ← keyPart t
    match skipBlank rest with
    | '.' :: more =>
      let (parts, rest) ← keyFrom fuel (skipBlank more)
      return (part :: parts, rest)
    | rest => return ([part], rest)

def key : Reader (List Text) := fun t => keyFrom t.length t

/-! ### Values -/

def openBrace : Char := Char.ofNat 123

def closeBrace : Char := Char.ofNat 125

def isFrozen (frozen : List (List Text)) (key : List Text) : Bool := frozen.any (·.isPrefixOf key)

def isContainer : Value → Bool
  | .array _ | .table _ => true
  | _ => false

def scalar (t : Text) : Option (Value × Text) :=
  match string? t with
  | some result => result.map fun (s, rest) => (.text s, rest)
  | none =>
    if "true".toList.isPrefixOf t then some (.boolean true, t.drop 4)
    else if "false".toList.isPrefixOf t then some (.boolean false, t.drop 5)
    else
      match moment? t with
      | some result => result
      | none => (basedNumber? t <|> decimalNumber? t) <|> specialFloat? t

mutual

def valueFrom : Nat → Reader Value
  | 0, _ => none
  | fuel + 1, t =>
    match t with
    | [] => none
    | c :: cs =>
      if c = '[' then do
        match ← skipLoose false cs with
        | ']' :: rest => return (.array [], rest)
        | inside =>
          let (items, rest) ← itemsFrom fuel inside
          return (.array items, rest)
      else if c = openBrace then
        match skipBlank cs with
        | [] => none
        | d :: rest =>
          if d = closeBrace then some (.table [], rest)
          else (entriesFrom fuel [] [] (d :: rest)).map fun (entries, rest) => (.table entries, rest)
      else scalar (c :: cs)

/-- The items of an array up to its bracket, behind which a comma may stand. -/
def itemsFrom : Nat → Reader (List Value)
  | 0, _ => none
  | fuel + 1, t => do
    let (v, rest) ← valueFrom fuel t
    match ← skipLoose false rest with
    | ']' :: rest => return ([v], rest)
    | ',' :: rest =>
      match ← skipLoose false rest with
      | ']' :: rest => return ([v], rest)
      | rest =>
        let (vs, rest) ← itemsFrom fuel rest
        return (v :: vs, rest)
    | _ => none

/-- The entries of a table on one line up to its brace, added to those before. -/
def entriesFrom : Nat → List (List Text) → Table → Reader Table
  | 0, _, _, _ => none
  | fuel + 1, frozen, table, t => do
    let (path, rest) ← key t
    let (_, rest) ← char? '=' rest
    let (v, rest) ← valueFrom fuel (skipBlank rest)
    if isFrozen frozen path then none
    else
      let table ← table.changeAt false (Table.setNew (path.getLastD []) v) path.dropLast
      match skipBlank rest with
      | [] => none
      | c :: rest =>
        if c = closeBrace then return (table, rest)
        else if c = ',' then
          entriesFrom fuel (if isContainer v then path :: frozen else frozen) table (skipBlank rest)
        else none

end

def value : Reader Value := fun t => valueFrom (2 * t.length + 2) t

/-! ### Statements -/

structure Document where
  data : Table := []
  frozen : List (List Text) := []
  declared : List (List Text) := []
  /-- Tables that must not be opened again once the present one is left. -/
  pending : List (List Text) := []
  header : List Text := []

namespace Document

def leave (d : Document) : Document := { d with declared := d.pending ++ d.declared, pending := [] }

def openTable (d : Document) (path : List Text) : Option Document :=
  if d.declared.contains path || isFrozen d.frozen path then none
  else
    (d.data.changeAt true some path).map fun data =>
      { d with data, declared := path :: d.declared, header := path }

def openItem (d : Document) (path : List Text) : Option Document :=
  if isFrozen d.frozen path then none
  else
    (d.data.changeAt true (Table.appendTable (path.getLastD [])) path.dropLast).map fun data =>
      { d with
        data
        frozen := d.frozen.filter fun p => !path.isPrefixOf p
        declared := path :: d.declared.filter fun p => !path.isPrefixOf p
        header := path }

def tablesOnTheWay (d : Document) (path : List Text) : List (List Text) :=
  (List.range (path.length - 1)).map fun i => d.header ++ path.take (i + 1)

def set (d : Document) (path : List Text) (v : Value) : Option Document :=
  let ways := d.tablesOnTheWay path
  let parent := d.header ++ path.dropLast
  if ways.any d.declared.contains || isFrozen d.frozen parent then none
  else
    (d.data.changeAt true (Table.setNew (path.getLastD []) v) parent).map fun data =>
      { d with
        data
        pending := ways ++ d.pending
        frozen := if isContainer v then (d.header ++ path) :: d.frozen else d.frozen }

/-- The header of an array of tables or of a table, behind its first bracket. -/
def headerFrom (d : Document) : Reader Document
  | '[' :: cs => do
    let (path, rest) ← key (skipBlank cs)
    let d ← d.openItem path
    if "]]".toList.isPrefixOf rest then return (d, rest.drop 2) else none
  | cs => do
    let (path, rest) ← key (skipBlank cs)
    let d ← d.openTable path
    let (_, rest) ← char? ']' rest
    return (d, rest)

def keyValue (d : Document) : Reader Document := fun t => do
  let (path, rest) ← key t
  let (_, rest) ← char? '=' rest
  let (v, rest) ← value (skipBlank rest)
  return (← d.set path v, rest)

def statement (d : Document) : Reader Document
  | '#' :: cs => some (d, '#' :: cs)
  | '[' :: cs => d.leave.headerFrom cs
  | t => d.keyValue t

/-- Statements line by line; each step passes over a line end or comes to the end. -/
def readFrom : Nat → Document → Text → Option Document
  | 0, _, _ => none
  | fuel + 1, d, t =>
    match skipBlank t with
    | [] => some d
    | '\n' :: rest => readFrom fuel d rest
    | t => do
      let (d, rest) ← d.statement t
      match ← skipComment (skipBlank rest) with
      | [] => return d
      | '\n' :: rest => readFrom fuel d rest
      | _ => none

end Document

/-- The table that a text describes, where a carriage return before a line feed falls away. -/
def ofText? (t : Text) : Option Table :=
  let t := Text.replace "\r\n" "\n" t
  (Document.readFrom (t.length + 1) {} t).map (·.data)

end DocLint.Toml
