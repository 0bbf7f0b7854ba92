import DocLint.Grammar.Parse
import DocLint.Grammar.Scope

/-!
Acceptance of source texts: the grammar, the places where things may stand, the scopes of names,
and the imports that switch features on.
-/

set_option autoImplicit false

namespace DocLint.Grammar

variable [Resources]

def featureModule : Text := "__future__"

def features : List Text :=
  ["nested_scopes", "generators", "division", "absolute_import", "with_statement",
    "print_function", "unicode_literals", "barry_as_FLUFL", "generator_stop", "annotations"]

structure FeatureState where
  closed : Bool := false
  previous : Nat := 0
  last : Nat := 0

/-- Goes through the statements at the beginning of a text: unknown features, and feature imports
behind other statements of the same line, are refused. The line of the last feature import is
given. -/
def featureLine : FeatureState → Program → Option Nat
  | s, [] => some s.last
  | s, (line, stmt) :: rest =>
    if s.closed ∧ line > s.previous then some s.last
    else
      match stmt with
      | .importsFrom (some source) names _ everything =>
        if source = featureModule then
          if s.closed ∨ everything ∨ !names.all features.contains then none
          else featureLine { s with previous := line, last := line } rest
        else featureLine { s with previous := line, closed := true } rest
      | _ => featureLine { s with previous := line, closed := true } rest

mutual

def Stmt.importsFeatures : Stmt → Bool
  | .importsFrom (some source) _ _ _ => source == featureModule
  | .function _ _ _ _ _ _ body => importFeatures body
  | .classDef _ _ _ _ body => importFeatures body
  | .branch _ a b => importFeatures a || importFeatures b
  | .loop _ a b => importFeatures a || importFeatures b
  | .forLoop _ _ _ a b => importFeatures a || importFeatures b
  | .withBlock _ _ _ a => importFeatures a
  | .tryBlock a _ hs b c =>
    importFeatures a || handlersImportFeatures hs || importFeatures b || importFeatures c
  | .matchBlock _ cs => casesImportFeatures cs
  | _ => false

def importFeatures : List Stmt → Bool
  | [] => false
  | s :: ss => s.importsFeatures || importFeatures ss

def handlersImportFeatures : List Handler → Bool
  | [] => false
  | h :: hs => h.importsFeatures || handlersImportFeatures hs

def Handler.importsFeatures : Handler → Bool
  | .mk _ _ body => importFeatures body

def casesImportFeatures : List Case → Bool
  | [] => false
  | c :: cs => c.importsFeatures || casesImportFeatures cs

def Case.importsFeatures : Case → Bool
  | .mk _ _ body => importFeatures body

end

def withoutDocstring (m : Program) : Program :=
  match m with
  | (_, .expression .text) :: rest => rest
  | _ => m

def featuresInOrder (m : Program) : Bool :=
  match featureLine {} (withoutDocstring m) with
  | none => false
  | some last => m.all fun (line, stmt) => line ≤ last || !stmt.importsFeatures

def defersHints (body : List Stmt) : Bool :=
  body.any fun stmt =>
    match stmt with
    | .importsFrom (some source) names _ _ =>
      source == featureModule && names.contains "annotations".toList
    | _ => false

def accepts (source : Text) : Bool :=
  match parse? source with
  | none => false
  | some m =>
    let body := m.map (·.2)
    let deferred := defersHints body
    featuresInOrder m && allFit { defersHints := deferred } body &&
      (Scope.ofProgram deferred body).isValid []

inductive SignatureFault where
  | empty
  | notAFunction
  deriving DecidableEq, Repr

/-- The parameters of the function with which a source text opens that can be given by name. A
text that is not well formed has none. -/
def parameterNamesOf (source : Text) : Except SignatureFault (List Text) :=
  match parse? source with
  | none => .ok []
  | some [] => .error .empty
  | some ((_, stmt) :: _) =>
    match stmt with
    | .function _ _ _ parameters _ _ _ =>
      let named := fun role => (parameters.filter fun p => p.role == role).map Parameter.name
      .ok (named .ordinary ++ named .keywordOnly)
    | _ => .error .notAFunction

end DocLint.Grammar
