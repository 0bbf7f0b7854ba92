import DocLint.Publicity
import DocLint.Text.Strip

/-!
What checks look at: a module or one of its definitions, with all that surrounds it.
-/

set_option autoImplicit false

namespace DocLint

variable [Resources]

inductive Subject where
  | module (m : Module)
  /-- A definition with the definitions around it, the nearest first. -/
  | definition (m : Module) (ancestors : List Definition) (d : Definition)

mutual

/-- A definition and those inside it, in the order of the text. -/
def Definition.subjects (m : Module) (ancestors : List Definition) : Definition → List Subject
  | ⟨kind, name, start, stop, decorators, docstring, skipped, children⟩ =>
    let d : Definition := ⟨kind, name, start, stop, decorators, docstring, skipped, children⟩
    .definition m ancestors d :: childSubjects m (d :: ancestors) children

def childSubjects (m : Module) (ancestors : List Definition) : List Definition → List Subject
  | [] => []
  | d :: ds => d.subjects m ancestors ++ childSubjects m ancestors ds

end

def Module.subjects (m : Module) : List Subject := .module m :: childSubjects m [] m.children

def isBlankOrComment (line : Text) : Bool :=
  let t := line.strip
  t.isEmpty || "#".toList.isPrefixOf t

/-- The lines from number `start` to number `stop` without blank lines and comments at the end. -/
def excerpt (source : List Text) (start stop : Nat) : Text :=
  let lines := (source.take stop).drop (start - 1)
  ((lines.reverse.dropWhile isBlankOrComment).reverse).flatten

namespace Subject

def root : Subject → Module
  | .module m => m
  | .definition m _ _ => m

def definition? : Subject → Option Definition
  | .module _ => none
  | .definition _ _ d => some d

def name : Subject → Text
  | .module m => m.name
  | .definition _ _ d => d.name

def start : Subject → Nat
  | .module m => m.start
  | .definition _ _ d => d.start

def stop : Subject → Nat
  | .module m => m.stop
  | .definition _ _ d => d.stop

def docstring : Subject → Option Docstring
  | .module m => m.docstring
  | .definition _ _ d => d.docstring

def skipped : Subject → Text
  | .module m => m.skipped
  | .definition _ _ d => d.skipped

def line (s : Subject) : Nat :=
  match s.docstring with
  | some d => d.start
  | none => s.start

def source (s : Subject) : Text := excerpt s.root.source s.start s.stop

def label : Subject → Text
  | .module m => if m.isPackage then "Package" else "Module"
  | .definition _ _ d => d.kind.label

def description (s : Subject) : Text := s.label.humanize

def kind (s : Subject) : Text := Text.afterLast ' ' s.description

def isPublic (searchPath : List Path) : Subject → Except PublicityFault Bool
  | .module m => .ok (m.isPublic searchPath)
  | .definition m ancestors d => d.isPublic m ancestors

def shown : Subject → Except PublicityFault Text
  | .module _ => .ok "at module level".toList
  | .definition m ancestors d => do
    let isPublic ← d.isPublic m ancestors
    let publicity := if isPublic then "public" else "private"
    let suffix := if d.skipped.isEmpty then [] else " (skipping ".toList ++ d.skipped ++ ")".toList
    return "in ".toList ++ publicity.toList ++ " ".toList ++ d.kind.description ++ " \x60".toList ++
      d.name ++ "\x60".toList ++ suffix

end Subject

end DocLint
