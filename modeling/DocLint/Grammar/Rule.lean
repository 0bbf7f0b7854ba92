import DocLint.Grammar.Terminal
import DocLint.Text.Compose

/-!
Rules of the grammar as readers of terminals. A rule that fails leaves the terminals untouched, so
an alternative can be tried after it.
-/

set_option autoImplicit false

namespace DocLint.Grammar

/-- Reads a value off the front of a list of terminals. -/
abbrev Rule := StateT (List Terminal) Option

namespace Rule

variable {α β : Type}

def next : Rule Terminal
  | [] => none
  | t :: ts => some (t, ts)

def sees (kind : TerminalKind) (text : Text) : Rule Bool := fun ts =>
  match ts with
  | t :: _ => some (t.kind == kind && t.text == text, ts)
  | [] => some (false, ts)

def seesOp (text : Text) : Rule Bool := sees .op text

def seesKeyword (text : Text) : Rule Bool := sees .keyword text

def seesKind (kind : TerminalKind) : Rule Bool := fun ts =>
  match ts with
  | t :: _ => some (t.kind == kind, ts)
  | [] => some (false, ts)

def seesOpSecond (text : Text) : Rule Bool := fun ts =>
  match ts with
  | _ :: t :: _ => some (t.kind == .op && t.text == text, ts)
  | _ => some (false, ts)

def terminal (kind : TerminalKind) (text : Text) : Rule Unit
  | t :: ts => if t.kind = kind ∧ t.text = text then some ((), ts) else none
  | [] => none

def op (text : Text) : Rule Unit := terminal .op text

def keyword (text : Text) : Rule Unit := terminal .keyword text

def kind (k : TerminalKind) : Rule Terminal
  | t :: ts => if t.kind = k then some (t, ts) else none
  | [] => none

def acceptsOp (text : Text) : Rule Bool := do
  if ← seesOp text then
    let _ ← next
    return true
  else return false

def acceptsKeyword (text : Text) : Rule Bool := do
  if ← seesKeyword text then
    let _ ← next
    return true
  else return false

def oneOf (texts : List Text) : Rule Text
  | t :: ts => if t.kind = .op ∧ texts.contains t.text then some (t.text, ts) else none
  | [] => none

def name : Rule Text := do
  let t ← kind .name
  return Text.normalizeIdentifier t.text

def softKeyword (text : Text) : Rule Unit := terminal .name text

def require (b : Bool) : Rule Unit := if b then pure () else failure

def repeated (p : Rule α) : Nat → Rule (List α)
  | 0, ts => some ([], ts)
  | fuel + 1, ts =>
    match p ts with
    | none => some ([], ts)
    | some (a, rest) => (repeated p fuel rest).map fun (as, rest) => (a :: as, rest)

def many (p : Rule α) : Rule (List α) := fun ts => repeated p ts.length ts

def many1 (p : Rule α) : Rule (List α) := do
  let a ← p
  let as ← many p
  return a :: as

def separated (p : Rule α) (sep : Rule β) : Rule (List α) := do
  let a ← p
  let as ← many (do let _ ← sep; p)
  return a :: as

/-- Items with commas between them and perhaps one behind; tells whether there was any comma. -/
def commaList (p : Rule α) : Rule (List α × Bool) := do
  let items ← separated p (op ",")
  let trailing ← acceptsOp ","
  return (items, trailing || items.length > 1)

def option (p : Rule α) : Rule (List α) := fun ts =>
  match p ts with
  | none => some ([], ts)
  | some (a, rest) => some ([a], rest)

end Rule

end DocLint.Grammar
