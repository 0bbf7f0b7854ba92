import DocLint.Outline.Note
import DocLint.Text.Dedent
import DocLint.Token.Scan

/-!
The state in which definitions are read from tokens, and the steps that all readers share. A
reader that fails leaves the state as it was at its failure.
-/

set_option autoImplicit false

namespace DocLint.Outline

structure State where
  rest : List Token
  line : Nat
  fresh : Bool := true
  pending : List Decorator := []
  exports : Option Exports := none
  exportFault : Option ExportFault := none
  features : List Text := []
  notes : List Note := []

inductive Fault where
  | noToken
  | unexpected (found : Token) (expected : TokenKind)
  | mismatch (message : Option Text)
  | stalled
  deriving DecidableEq, Repr

def unexpectedMessage (found : Token) (expected : TokenKind) : Text :=
  "Unexpected token ".toList ++ found.brief ++ ", expected ".toList ++ Text.ofNat expected.ordinal

abbrev Reader := EStateM Fault State

def State.ofTokens? : List Token → Option State
  | [] => none
  | t :: ts => some { rest := t :: ts, line := t.start.row }

def State.advance (s : State) (t : Token) (ts : List Token) : State :=
  { s with
    rest := ts
    line := match ts with
      | [] => s.line
      | next :: _ => next.start.row
    fresh := t.kind.endsStatement || (s.fresh && t.kind.isLogicallyBlank) }

def move : Reader Token := do
  let s ← get
  match s.rest with
  | [] => throw .noToken
  | t :: ts =>
    set (s.advance t ts)
    return t

def current? : Reader (Option Token) := do return (← get).rest.head?

def current : Reader Token := do
  match ← current? with
  | some t => return t
  | none => throw .noToken

def line : Reader Nat := do return (← get).line

def note (n : Note) : Reader Unit := modify fun s => { s with notes := n :: s.notes }

def consume (kind : TokenKind) : Reader Unit := do
  let t ← move
  if t.kind ≠ kind then throw (.unexpected t kind)

def repeating {α β : Type} (step : α → Reader (α ⊕ β)) : Nat → α → Reader β
  | 0, _ => throw .stalled
  | n + 1, a => do
    match ← step a with
    | .inl a => repeating step n a
    | .inr b => return b

/-- Repeats a step until it has a result. A step without one takes a token, so there are no more
steps than tokens and one. -/
def loop {α β : Type} (step : α → Reader (α ⊕ β)) (a : α) : Reader β := do
  repeating step ((← get).rest.length + 1) a

def Token.matches (t : Token) (kind : TokenKind) (value : Option Text) : Bool :=
  t.kind == kind && value.all (t.value == ·)

/-- Takes a token and tells whether it is one of a kind, with a value if one is given. -/
def leapStep (kind : TokenKind) (value : Option Text) (_ : Unit) : Reader (Unit ⊕ Unit) := do
  match ← current? with
  | none => return .inr ()
  | some t =>
    let _ ← move
    return if Token.matches t kind value then .inr () else .inl ()

/-- Takes tokens up to the first one of a kind, with a value if one is given. -/
def leapfrog (kind : TokenKind) (value : Option Text := none) : Reader Unit :=
  loop (leapStep kind value) ()

/-- Refuses the current token if it is not of a kind and value, as far as these are given. The
end of the text and an empty value are not asked for. -/
def checkCurrent (file : Text) (kind : Option TokenKind) (value : Option Text) : Reader Unit := do
  let t ← current
  let kindFits := kind.all fun k => k == .endMarker || t.kind == k
  let valueFits := value.all fun v => v.isEmpty || t.value == v
  if !(kindFits && valueFits) then
    let text :=
      "\n        Unexpected token at line ".toList ++ Text.ofNat (← line) ++
      ":\n\n        In file: ".toList ++ file ++
      "\n\n        Got kind ".toList ++ t.kind.shown ++
      "\n        Got value ".toList ++ t.value ++ "\n        ".toList
    throw (.mismatch (some (Text.dedent text)))

end DocLint.Outline
