import DocLint.Definition
import DocLint.Path
import DocLint.Resources

/-!
Which modules and definitions are public.
-/

set_option autoImplicit false

namespace DocLint

def Text.isUnderscored (t : Text) : Bool := "_".toList.isPrefixOf t

def Text.isDunder (t : Text) : Bool := "__".toList.isPrefixOf t && "__".toList.isSuffixOf t

def isPrivateName (name : Text) : Bool := name.isUnderscored && !name.isDunder

/-- Whether a directory above a file is private, where the directories of the search path end the
search. -/
def Path.isInsidePrivate (searchPath : List Path) (file : Path) : Bool :=
  (file.parent.ancestry.takeWhile (!searchPath.contains ·)).any fun p => isPrivateName p.name

def Module.isPublic (searchPath : List Path) (m : Module) : Bool :=
  let file := Path.ofText m.name
  !file.isInsidePrivate searchPath && !isPrivateName file.stem

def variadicMethods : List Text := ["__init__", "__call__", "__new__"]

/-- Why it is not known whether a definition is public. -/
inductive PublicityFault where
  | exports
  | name
  deriving DecidableEq, Repr

namespace Definition

variable [Resources]

def isFunction (d : Definition) : Bool := !d.kind.isClass

def isMagic (d : Definition) : Bool := d.name.isDunder && !variadicMethods.contains d.name

def isInit (d : Definition) : Bool := d.name == "__init__".toList

def hasDecorator (d : Definition) (name : Text) : Bool := d.decorators.any (·.name == name)

def isOverload (d : Definition) : Bool := d.hasDecorator "overload"

def isStatic (d : Definition) : Bool := d.hasDecorator "staticmethod"

def isProperty (names : List Text) (d : Definition) : Bool :=
  d.decorators.any fun x => names.contains x.name

def isTest (d : Definition) : Bool :=
  "test".toList.isPrefixOf d.name || d.name == "runTest".toList

/-- The pattern of the decorators that make a method of this name set or delete a property. -/
def accessorPattern (name : Text) : Text := "^".toList ++ name ++ "\\.".toList

/-- Whether a method with decorators of these names does so. Without decorators its name is not looked at. -/
def isAccessorBy (name : Text) (decorators : List Text) : Except PublicityFault Bool :=
  if decorators.isEmpty then .ok false
  else
    match Resources.matcher? (accessorPattern name) with
    | none => .error .name
    | some p => .ok (decorators.any p.opens)

def isAccessor (d : Definition) : Except PublicityFault Bool := isAccessorBy d.name (d.decorators.map (·.name))

def hasPublicName (d : Definition) : Bool :=
  !d.name.isUnderscored || variadicMethods.contains d.name || d.isMagic

/-- Whether a definition directly in a module is public: exported names decide, if there are any. -/
def isExported (m : Module) (d : Definition) : Except PublicityFault Bool :=
  match m.exports with
  | none => .ok (!d.name.isUnderscored)
  | some e =>
    match e.contains? d.name with
    | some listed => .ok listed
    | none => .error .exports

/-- Whether a definition is public, where `ancestors` are the definitions around it, the nearest
first. -/
def isPublic (m : Module) (ancestors : List Definition) (d : Definition) : Except PublicityFault Bool :=
  match d.kind with
  | .function | .plainClass => d.isExported m
  | .nestedFunction => .ok false
  | .method =>
    match d.isAccessor with
    | .error e => .error e
    | .ok true => .ok false
    | .ok false =>
      match ancestors with
      | [] => .ok false
      | p :: ps => (isPublic m ps p).map (· && d.hasPublicName)
  | .nestedClass =>
    if d.name.isUnderscored then .ok false
    else
      match ancestors with
      | [] => .ok false
      | p :: ps => if p.kind.isClass then isPublic m ps p else .ok false

end Definition

end DocLint
