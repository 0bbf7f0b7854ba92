import DocLint.Grammar.Accept
import DocLint.Outline.Piece

/-!
Reading the definitions of a source text.
-/

set_option autoImplicit false

namespace DocLint.Outline

variable [Resources]

def parameterStep (level : Int) : Reader (Int ⊕ Unit) := do
  let t ← current
  if t.is .op ")" && level == 1 then return .inr ()
  else
    let _ ← move
    return .inl (if t.is .op "(" then level + 1 else if t.is .op ")" then level - 1 else level)

def parameters : Reader Unit := loop parameterStep 0

def headerEnd : Reader Unit := do
  if (← current).is .op "(" then parameters
  if (← current).is .op ":" then consume .op else leapfrog .op (some ":")

def takePending : Reader (List Decorator) := do
  let pending := (← get).pending
  note (.pending pending)
  modify fun s => { s with pending := [] }
  return pending

def definitionWith (nested : Region → Reader (List Definition)) (kind : DefinitionKind) :
    Reader Definition := do
  let start ← line
  consume .name
  let name := (← current).value
  note (.definition kind name)
  let _ ← move
  headerEnd
  let first ← current
  let result ← if first.kind = .newline ∨ first.kind = .comment then do
      let skipped ← skipComment
      leapfrog .indent
      if (← current).kind = .indent then throw (.mismatch none)
      let docstring ← docstring
      let decorators ← takePending
      note .nested
      let children ← nested (.within kind)
      note (.nestedDone name)
      let stop := (← line) - 1
      pure { kind, name, start, stop, decorators, docstring, skipped, children : Definition }
    else do
      let docstring ← docstring
      let decorators ← takePending
      let stop ← line
      leapfrog .newline
      pure { kind, name, start, stop, decorators, docstring, skipped := [], children := [] }
  note (.definitionDone kind name (← current?))
  return result

/-- Reads what the token `t` opens and what follows it. The statement about exported names counts if
`exporting` is set, a decorator may open if `fresh` is, and `next` reads definitions up to the end of
their block. -/
def definitionsAt (next : Region → Bool → Reader (List Definition)) (region : Region)
    (exporting fresh : Bool) (t : Token) : Reader (List Definition) := do
  if exporting && t.value == exportName then
    exportStatement
    next region exporting
  else if t.is .op "@" && fresh then
    consume .op
    decorators
    next region exporting
  else if t.value = "def" ∨ t.value = "class" then
    let d ← definitionWith (fun r => next r false) (region.nested (t.value = "class"))
    return d :: (← next region exporting)
  else if t.kind = .indent then
    consume .indent
    let inner ← next region false
    return inner ++ (← next region exporting)
  else if t.kind = .dedent then
    consume .dedent
    return []
  else if t.value = "from" then
    fromImport
    next region exporting
  else
    let _ ← move
    next region exporting

/-- Reads definitions up to the end of their block. The first argument bounds the number of steps. -/
def definitionsWithin : Nat → Region → Bool → Reader (List Definition)
  | 0, _, _ => throw .stalled
  | fuel + 1, region, exporting => do
    match ← current? with
    | none => return []
    | some t =>
      let fresh := (← get).fresh
      note (.definitions t fresh)
      definitionsAt (definitionsWithin fuel) region exporting fresh t

/-- Reads definitions up to the end of their block. Each step takes a token, so there are no more
steps than tokens and one. -/
def definitions (region : Region) (exporting : Bool) : Reader (List Definition) := do
  definitionsWithin ((← get).rest.length + 1) region exporting

def definition (kind : DefinitionKind) : Reader Definition :=
  definitionWith (fun r => definitions r false) kind

def module (name : Text) (source : List Text) : Reader Module := do
  note .module
  let start ← line
  let skipped ← skipComment
  let docstring ← docstring
  let children ← definitions .module true
  if (← current?).isSome then throw (.mismatch none)
  let s ← get
  note .moduleDone
  return { name, source, start, stop := s.line, docstring, skipped, children, exports := s.exports,
           exportFault := s.exportFault, features := s.features }

end DocLint.Outline

namespace DocLint

variable [Resources]

inductive OutlineFault where
  | rejected
  | scan (fault : ScanFault)
  | read (fault : Outline.Fault)
  deriving DecidableEq, Repr

def Outline.State.ofText (source : Text) : Except ScanFault State :=
  let scan := Scan.ofText source
  match State.ofTokens? scan.tokens, scan.fault with
  | some s, _ => .ok s
  | none, some fault => .error fault
  | none, none => .ok { rest := [], line := 0 }

/-- The module of a source text, with the notes taken on the way. -/
def Outline.ofText (name source : Text) : Except OutlineFault Module × List Outline.Note :=
  if !Grammar.accepts source then (.error .rejected, [])
  else
    match Outline.State.ofText source with
    | .error fault => (.error (.scan fault), [])
    | .ok s =>
      match (Outline.module name source.lines).run s with
      | .ok m s => (.ok m, s.notes.reverse)
      | .error fault s => (.error (.read fault), s.notes.reverse)

def Module.ofText (name source : Text) : Except OutlineFault Module := (Outline.ofText name source).1

end DocLint
