import DocLint.Outline.State

/-!
Readers for what stands around definitions: docstrings, decorators, comments that switch codes
off, the exported names and imports.
-/

set_option autoImplicit false

namespace DocLint.Outline

variable [Resources]

def isFiller (t : Token) : Bool := t.kind == .comment || t.kind == .newline || t.kind == .nl

def docstringStep (_ : Unit) : Reader (Unit ⊕ Option Docstring) := do
  let t ← current
  if isFiller t then
    let _ ← move
    note (.docstring (some (← current)))
    return .inl ()
  else if t.kind = .string then
    let _ ← move
    return .inr (some ⟨t.value, t.start.row, t.stop.row⟩)
  else return .inr none

def docstring : Reader (Option Docstring) := do
  note (.docstring (← current?))
  loop docstringStep ()

structure OpenDecorator where
  name : Text := []
  arguments : Text := []
  inArguments : Bool := false

def OpenDecorator.close (d : OpenDecorator) : Decorator := ⟨d.name, d.arguments⟩

def OpenDecorator.extend (d : OpenDecorator) (t : Token) : OpenDecorator :=
  if t.is .op "(" then { d with inArguments := true }
  else if t.is .op ")" || t.kind == .newline || t.kind == .nl then d
  else if d.inArguments then { d with arguments := d.arguments ++ t.value }
  else { d with name := d.name ++ t.value }

def addDecorator (d : Decorator) : Reader Unit :=
  modify fun s => { s with pending := s.pending ++ [d] }

def opensDecorated (t : Token) : Bool :=
  t.kind == .name && (Text.literals ["async", "def", "class"]).contains t.value

/-- Extends a decorator by a token, or closes it at the next decorator or at the definition. -/
def decoratorStep (d : OpenDecorator) : Reader (OpenDecorator ⊕ Unit) := do
  match ← current? with
  | none => addDecorator d.close; return .inr ()
  | some t =>
    note (.decorators t)
    if opensDecorated t then
      addDecorator d.close
      return .inr ()
    else if t.is .op "@" then
      addDecorator d.close
      let _ ← move
      return .inl {}
    else
      let _ ← move
      return .inl (d.extend t)

def decorators : Reader Unit := loop decoratorStep {}

def skippedBy (comment : Text) : Text :=
  match Text.splitOnText "noqa: " comment with
  | _ :: code :: codes => (code :: codes).flatten
  | _ => if "# noqa".toList.isPrefixOf comment then "all" else []

def skippedAt (t : Token) : Text := if t.kind = .comment then skippedBy t.value else []

def skipStep (_ : Unit) : Reader (Unit ⊕ Text) := do
  let t ← current
  if isFiller t then
    let _ ← move
    note (.comments (← current))
    return if (skippedAt t).isEmpty then .inl () else .inr (skippedAt t)
  else return .inr []

/-- The codes that the comments here switch off; the first comment that does so is the last one
read. -/
def skipComment : Reader Text := loop skipStep ()

def refuseExports (fault : ExportFault) : Reader Unit :=
  modify fun s => { s with exports := none, exportFault := some fault }

/-- Values that open and close a bracketed list of names; nothing counts as a bracket too. -/
def openingBrackets : List Text := Text.literals ["", "(", "[", "(["]

def closingBrackets : List Text := Text.literals ["", ")", "]", ")]"]

def exportContentStep (surrounded : Bool) (content : Text) : Reader (Text ⊕ Option Text) := do
  let t ← current
  if surrounded && closingBrackets.contains t.value then return .inr (some content)
  else if t.kind = .newline ∨ t.kind = .endMarker then return .inr (some content)
  else if t.kind = .nl ∨ t.kind = .comment then
    let _ ← move
    return .inl content
  else if t.kind = .string ∨ t.value = "," then
    let _ ← move
    return .inl (content ++ t.value)
  else return .inr none

/-- The strings and commas of the exported names, without the brackets around them; none if there
is anything else. -/
def exportContent (surrounded : Bool) : Reader (Option Text) := loop (exportContentStep surrounded) []

def evaluateExports (content : Text) : Reader Unit :=
  modify fun s => match Exports.evaluate content with
    | .ok e => { s with exports := some e }
    | .error e =>
      { s with exportFault := some (.failed ("(".toList ++ content ++ ")".toList) e.message) }

def exportsEndStep (_ : Unit) : Reader (Unit ⊕ Unit) := do
  let t ← current
  if t.kind.endsStatement || t.kind == .endMarker then return .inr ()
  else if t.kind = .comment then
    let _ ← move
    return .inl ()
  else
    refuseExports .unclear
    return .inr ()

def exportsEnd : Reader Unit := loop exportsEndStep ()

def exportedContent (surrounded : Bool) : Reader Unit := do
  match ← exportContent surrounded with
  | none => modify fun s => { s with exportFault := some .notLiteral }
  | some content =>
    if surrounded then consume .op
    if !surrounded && !content.contains ',' then
      let kind := (← current).kind
      modify fun s => { s with exportFault := some (.unexpectedKind kind) }
    else
      evaluateExports content
      exportsEnd

def exportedNames : Reader Unit := do
  consume .op
  let surrounded := openingBrackets.contains (← current).value
  if surrounded then consume .op
  exportedContent surrounded

def exportName : Text := "__all__"

def exportStatement : Reader Unit := do
  if (← current).value ≠ exportName then throw (.mismatch none)
  consume .name
  let s ← get
  if s.exports.isSome || s.exportFault.isSome then refuseExports .unclear
  else if (← current).value ≠ "=".toList then
    modify fun s => { s with exportFault := some .unclear }
  else exportedNames

def importSourceStep (isFeature : Bool) (_ : Unit) : Reader (Unit ⊕ Bool) := do
  match ← current? with
  | none => return .inr false
  | some t =>
    if t.value = "import".toList then
      let _ ← move
      return .inr isFeature
    else if t.kind = .name ∨ t.kind = .op then
      let _ ← move
      return .inl ()
    else return .inr false

def importSource : Reader Bool := do
  if (← current).value ≠ "from".toList then throw (.mismatch none)
  let _ ← move
  let isFeature := (← current).value == "__future__".toList
  let _ ← move
  loop (importSourceStep isFeature) ()

def addFeature (name : Text) : Reader Unit := do
  note (.feature name)
  modify fun s =>
    if s.features.contains name then s else { s with features := s.features ++ [name] }

def importedAlias : Reader Unit := do
  if (← current).is .name "as" then
    consume .name
    if (← current).kind = .name then consume .name

def importedComma : Reader Unit := do
  if (← current).value = ",".toList then consume .op

def importedName (isFeature : Bool) (t : Token) : Reader Unit := do
  note (.imported t)
  if isFeature then addFeature t.value
  consume .name
  note (.imported (← current))
  importedAlias
  importedComma
  note (.imported (← current))

def endsImport (bracketed : Bool) (t : Token) : Bool :=
  (if bracketed then t.kind == .op else t.kind == .newline || t.kind == .endMarker) || t.is .op ";"

def importedNamesStep (isFeature bracketed : Bool) (_ : Unit) : Reader (Unit ⊕ Unit) := do
  let t ← current
  if endsImport bracketed t then return .inr ()
  else if t.kind = .name then
    importedName isFeature t
    return .inl ()
  else
    let _ ← move
    return .inl ()

def importedNames (isFeature : Bool) : Reader Unit := do
  let bracketed := (← current).value == "(".toList
  if bracketed then consume .op
  loop (importedNamesStep isFeature bracketed) ()

def fromImport : Reader Unit := do
  note .fromImport
  importedNames (← importSource)

end DocLint.Outline
