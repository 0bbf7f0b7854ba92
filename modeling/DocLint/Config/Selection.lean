import DocLint.Config.Session

/-!
The choice of files to check: those of the targets and below them whose names fit the patterns of
their folders.
-/

set_option autoImplicit false

namespace DocLint

variable [Resources]

open Toml (Value)

structure Sieve where
  files : Matcher
  folders : Matcher
  ignoreDecorators : Option (Text × Matcher)
  propertyDecorators : Option (List Text)

namespace Sieve

def matcherOf (t : Text) : Except ConfigFault Matcher :=
  match Resources.matcher? t with
  | some p => .ok p
  | none => .error .malformedPattern

def wholePattern : Value → Except ConfigFault Matcher
  | .text t => matcherOf (t ++ ['$'])
  | _ => .error .patternType

def decoratorPattern (v : Value) : Except ConfigFault (Option (Text × Matcher)) :=
  if !v.isGiven then .ok none
  else
    match v with
    | .text t => (matcherOf t).map fun p => some (t, p)
    | _ => .error .patternType

def decoratorNames (v : Value) : Option (List Text) :=
  match v with
  | .text t => if t.isEmpty then none else some (Text.splitOn ',' t).eraseDups
  | _ => none

def ofConfig (c : Config) : Except ConfigFault Sieve := do
  let files ← wholePattern c.files
  let folders ← wholePattern c.folders
  let ignoreDecorators ← decoratorPattern c.ignoreDecorators
  return { files, folders, ignoreDecorators, propertyDecorators := decoratorNames c.propertyDecorators }

def takesFile (s : Sieve) (name : Text) : Bool := s.files.opens name

def takesFolder (s : Sieve) (name : Text) : Bool := s.folders.opens name

def selected (s : Sieve) (codes : CodeSet) (location : Text) : Selected where
  location
  codes
  ignoreDecorators := s.ignoreDecorators
  propertyDecorators := s.propertyDecorators

end Sieve

namespace Lookup

/-- The configuration for a location, ready for use, with its codes as they are by now. -/
def sieve (w : Workspace) (location : Text) : Lookup (Sieve × CodeSet) := do
  let c ← config w (w.files.absolute location)
  match Sieve.ofConfig c with
  | .ok s => return (s, (← get).codesAt c.codes)
  | .error e => throw e

def choose (files : List Selected) : Lookup Unit :=
  modify fun s => { s with trail := s.trail ++ files.map .file }

def chooseIn (w : Workspace) (location : Text) (inside : Folder) : Lookup Sieve := do
  let (s, codes) ← sieve w location
  choose ((inside.fileNames.filter s.takesFile).map fun name =>
    s.selected codes (Location.join location name))
  return s

/-- Chooses files in the folders below a folder, one folder after the other with all below it. -/
def chooseBelow (w : Workspace) (location : Text) (s : Sieve) : Folder → Lookup Unit
  | .empty => return ()
  | .file _ _ rest => chooseBelow w location s rest
  | .folder name inside rest => do
    if s.takesFolder name then
      let here := Location.join location name
      let inner ← chooseIn w here inside
      chooseBelow w here inner inside
    chooseBelow w location s rest

def chooseTarget (w : Workspace) (target : Text) : Lookup Unit := do
  match w.files.find target with
  | .ok (.folder inside) => do
    let s ← chooseIn w target inside
    chooseBelow w target s inside
  | _ => do
    let (s, codes) ← sieve w target
    if s.takesFile (Location.base target) then choose [s.selected codes target]

def chooseAll (w : Workspace) : List Text → Lookup Unit
  | [] => return ()
  | target :: targets => do
    chooseTarget w target
    chooseAll w targets

def chooseFiles (w : Workspace) : Lookup Unit := do
  let s ← get
  match s.settings, s.targets with
  | some _, some targets => chooseAll w targets
  | _, _ => throw .uninitialized

end Lookup

end DocLint
