import DocLint.Grammar.Expression

/-!
Rules for the patterns of cases.
-/

set_option autoImplicit false

namespace DocLint.Grammar.Rules

variable [Resources]

open Grammar.Rule

variable (g : Rules)

def isImaginary (t : Text) : Bool := t.getLast?.any fun c => c == 'j' || c == 'J'

/-- A number with an optional sign, or a sum of a real and an imaginary one. -/
def numberPattern : Rule Key := do
  let isNegative ← acceptsOp "-"
  let real ← kind .number
  match ← option (oneOf ["+", "-"]) with
  | [] => return Key.ofNumber isNegative real.text
  | signs =>
    let imaginary ← kind .number
    require (!isImaginary real.text && isImaginary imaginary.text)
    return (Key.ofNumber isNegative real.text).sum
      (Key.ofNumber (signs == ["-".toList]) imaginary.text)

def literalPattern : Rule (Expr × Key) := do
  if (← seesKind .number) || (← seesOp "-") then return (.constant, ← numberPattern)
  else if ← seesKind .string then
    let texts := ((← get).takeWhile (·.kind == .string)).map (·.text)
    return (← g.strings, Key.ofStrings texts)
  else
    let t ← kind .keyword
    match String.ofList t.text with
    | "True" => return (.constant, Key.ofSwitch true)
    | "False" => return (.constant, Key.ofSwitch false)
    | "None" => return (.constant, .nothing)
    | _ => failure

def dottedName : Rule Expr := do
  let id ← name
  let attributes ← many (do op "."; name)
  return attributes.foldl (fun e a => .attribute e a) (.name id)

def captureName : Rule Text := do
  require (!(← sees .name "_"))
  let id ← name
  require (!((← seesOp ".") || (← seesOp "(") || (← seesOp "=")))
  return id

def maybeStarPattern : Rule Pattern := do
  if ← acceptsOp "*" then
    (do softKeyword "_"; return .star none) <|> (do return .star (some (← captureName)))
  else g.pattern

/-- Patterns between brackets behind the opening one; a single one without comma is a group if
`group` says so. -/
def sequenceItems (close : Text) (group : Bool) : Rule Pattern := do
  if ← acceptsOp close then return .sequence []
  else
    let (items, comma) ← commaList g.maybeStarPattern
    op close
    match items, comma with
    | [.star s], false => if group then failure else return .sequence [.star s]
    | [p], false => if group then return p else return .sequence [p]
    | ps, _ => return .sequence ps

def mappingEntry : Rule (Key × Pattern) := do
  let key ← (do return (← g.literalPattern).2) <|> (do
    match ← dottedName with
    | .attribute _ _ => return Key.attribute
    | _ => failure)
  op ":"
  let p ← g.pattern
  return (key, p)

def mappingItems : Rule Pattern := do
  let entries ← option (separated g.mappingEntry (op ","))
  let entries := entries.flatten
  let rest ← option (do
    if !entries.isEmpty then op ","
    op "**"
    captureName)
  if !entries.isEmpty || !rest.isEmpty then
    let _ ← acceptsOp ","
  op "\x7d"
  return .mapping (entries.map (·.1)) (entries.map (·.2)) rest.head?

def objectItem (sawKeyword : Bool) : Rule (Option Text × Pattern) := do
  if (← seesKind .name) && (← seesOpSecond "=") then
    let id ← name
    op "="
    return (some id, ← g.pattern)
  else
    require (!sawKeyword)
    return (none, ← g.pattern)

def objectItems : Nat → List (Option Text × Pattern) → Rule (List (Option Text × Pattern))
  | 0, _ => failure
  | fuel + 1, done => do
    if ← acceptsOp ")" then return done
    else
      let item ← g.objectItem (done.any (·.1.isSome))
      if ← acceptsOp "," then objectItems fuel (done ++ [item])
      else
        op ")"
        return done ++ [item]

def closedPattern : Rule Pattern := do
  if ← acceptsOp "[" then g.sequenceItems "]" false
  else if ← acceptsOp "(" then g.sequenceItems ")" true
  else if ← acceptsOp "\x7b" then g.mappingItems
  else if ← sees .name "_" then
    softKeyword "_"
    return .wildcard
  else if ← seesKind .name then
    let e ← dottedName
    if ← acceptsOp "(" then
      let fuel := (← get).length + 1
      let items ← g.objectItems fuel []
      return .object e (items.map (·.2)) (items.filterMap (·.1))
    else
      require (!(← seesOp "="))
      match e with
      | .name id => return .capture id
      | _ => return .value e
  else return .value (← g.literalPattern).1

def patternRule : Rule Pattern := do
  let alternatives ← separated g.closedPattern (op "|")
  let p := match alternatives with
    | [p] => p
    | ps => .either ps
  if ← acceptsKeyword "as" then return .bind p (← captureName) else return p

def casePattern : Rule Pattern := do
  let item : Rule Pattern := do
    if ← seesOp "*" then g.maybeStarPattern else g.patternRule
  match ← commaList item with
  | ([.star _], false) => failure
  | ([p], false) => return p
  | (ps, _) => return .sequence ps

end DocLint.Grammar.Rules
