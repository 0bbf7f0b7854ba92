import DocLint.Definition

/-!
Notes that are taken while definitions are read.
-/

set_option autoImplicit false

namespace DocLint.Outline

inductive Note where
  | module
  | moduleDone
  | docstring (at_ : Option Token)
  | decorators (at_ : Token)
  | definitions (at_ : Token) (fresh : Bool)
  | definition (kind : DefinitionKind) (name : Text)
  | pending (decorators : List Decorator)
  | nested
  | nestedDone (name : Text)
  | definitionDone (kind : DefinitionKind) (name : Text) (next : Option Token)
  | comments (at_ : Token)
  | fromImport
  | imported (at_ : Token)
  | feature (name : Text)
  deriving DecidableEq, Repr

namespace Note

def shownOr (f : Token → Text) : Option Token → Text
  | none => "None"
  | some t => f t

def messages : Note → List Text
  | .module => ["parsing module."]
  | .moduleDone => ["finished parsing module."]
  | .docstring t => ["parsing docstring, token is ".toList ++ shownOr Token.brief t]
  | .decorators t => ["parsing decorators, current token is ".toList ++ t.brief]
  | .definitions t fresh =>
    ["parsing definition list, current token is ".toList ++ t.brief,
      "got_newline: ".toList ++ (if fresh then "True" else "False").toList]
  | .definition k name =>
    ["parsing ".toList ++ k.label ++ " '".toList ++ name ++ "'".toList]
  | .pending ds =>
    ["current accumulated decorators: [".toList ++ Text.join ", " (ds.map Decorator.shown) ++
      "]".toList]
  | .nested => ["parsing nested definitions."]
  | .nestedDone name => ["finished parsing nested definitions for '".toList ++ name ++ "'".toList]
  | .definitionDone k name next =>
    ["finished parsing ".toList ++ k.label ++ " '".toList ++ name ++ "'. Next token is ".toList ++
      shownOr Token.full next]
  | .comments t => ["parsing comments before docstring, token is ".toList ++ t.brief]
  | .fromImport => ["parsing from/import statement."]
  | .imported t => ["parsing import, token is ".toList ++ t.brief]
  | .feature name => ["found future import: ".toList ++ name]

end Note

end DocLint.Outline
