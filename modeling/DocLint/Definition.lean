import DocLint.Exports

/-!
Definitions of a source text: functions, methods and classes with their decorators and docstrings,
as a tree under a module.
-/

set_option autoImplicit false

namespace DocLint

structure Decorator where
  name : Text
  arguments : Text
  deriving DecidableEq, Repr

def Decorator.shown (d : Decorator) : Text :=
  "Decorator(name=".toList ++ d.name.quoted ++ ", arguments=".toList ++ d.arguments.quoted ++
    ")".toList

/-- A docstring as it is written, quotes included, with its first and last line. -/
structure Docstring where
  text : Text
  start : Nat
  stop : Nat
  deriving DecidableEq, Repr

inductive DefinitionKind where
  | function | nestedFunction | method | plainClass | nestedClass
  deriving DecidableEq, Repr

namespace DefinitionKind

def label : DefinitionKind → Text
  | .function => "Function"
  | .nestedFunction => "NestedFunction"
  | .method => "Method"
  | .plainClass => "Class"
  | .nestedClass => "NestedClass"

def all : List DefinitionKind := [.function, .nestedFunction, .method, .plainClass, .nestedClass]

def isClass : DefinitionKind → Bool
  | .plainClass | .nestedClass => true
  | _ => false

end DefinitionKind

/-- Where definitions stand: directly in a module, or in another definition. -/
inductive Region where
  | module
  | within (kind : DefinitionKind)
  deriving DecidableEq, Repr

def Region.nested (r : Region) (isClass : Bool) : DefinitionKind :=
  match r, isClass with
  | .module, true => .plainClass
  | .module, false => .function
  | .within _, true => .nestedClass
  | .within k, false => if k.isClass then .method else .nestedFunction

structure Definition where
  kind : DefinitionKind
  name : Text
  start : Nat
  stop : Nat
  decorators : List Decorator
  docstring : Option Docstring
  skipped : Text
  children : List Definition
  deriving Repr

structure Module where
  name : Text
  source : List Text
  start : Nat
  stop : Nat
  docstring : Option Docstring
  skipped : Text
  children : List Definition
  exports : Option Exports
  exportFault : Option ExportFault
  features : List Text
  deriving Repr

def Module.isPackage (m : Module) : Bool := "__init__.py".toList.isSuffixOf m.name

def Text.separateCapitals : Text → Text
  | [] => []
  | [c] => [c]
  | c :: d :: cs =>
    if c ≠ '\n' && isAsciiUpper d then
      c :: ' ' :: d :: capitalsFrom cs
    else c :: separateCapitals (d :: cs)
where
  capitalsFrom : Text → Text
    | [] => []
    | c :: cs => if isAsciiUpper c then c :: capitalsFrom cs else separateCapitals (c :: cs)

def Text.humanize (t : Text) : Text := lower (separateCapitals t)

namespace DefinitionKind

def description (k : DefinitionKind) : Text := k.label.humanize

end DefinitionKind

end DocLint
