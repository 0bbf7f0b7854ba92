import DocLint.CommandLine.Arguments
import DocLint.Config.File
import DocLint.Resources

/-!
Sessions: the configurations of folders as they are found, with the lists of codes that they share.
-/

set_option autoImplicit false

namespace DocLint

open Toml (Value)

/-- Where a list of codes was made. Configurations that take a list over share it, and a change to it
is a change for all of them. -/
inductive Origin where
  | standard
  | commandLine (turn : Nat)
  /-- The configuration file of a folder, given by its names from the innermost one on. -/
  | folder (names : List Text)
  | namedFile
  deriving DecidableEq, Repr

inductive Start where
  | standard
  | copied
  | given (codes : CodeSet)
  deriving Repr

def Settings.start (s : Settings) : Except ConfigFault Start :=
  match s.ignore, s.select, s.convention with
  | some ignored, _, _ => .ok (.given (CodeSet.all.without ignored))
  | none, some selected, _ => .ok (.given selected)
  | none, none, none => .ok .standard
  | none, none, some (.text name) =>
    match Convention.ofName? name with
    | some .pep257 => .ok .copied
    | some c => .ok (.given c.codes)
    | none => .error .unknownConvention
  | none, none, some _ => .error .conventionType

structure Config where
  codes : Origin
  files : Value
  folders : Value
  ignoreDecorators : Value
  propertyDecorators : Value
  deriving Repr

/-- What the command line says about checks; it takes precedence over all files. -/
structure Override where
  codes : Option Origin := none
  files : Option Value := none
  folders : Option Value := none
  ignoreDecorators : Option Value := none
  propertyDecorators : Option Value := none
  deriving Repr

structure Selected where
  location : Text
  codes : CodeSet
  ignoreDecorators : Option (Text × Matcher)
  propertyDecorators : Option (List Text)

inductive Event where
  | log (line : LogLine)
  | file (selected : Selected)

structure Session where
  /-- Lists of codes; the standard one is added with its first change. -/
  lists : List (Origin × CodeSet) := []
  turn : Nat := 0
  settings : Option Settings := none
  targets : Option (List Text) := none
  run : Option RunOptions := none
  override : Option Override := none
  known : List (List Text × Config) := []
  knownNamed : Option Config := none
  trail : List Event := []

/-- A step of a session. A fault leaves the session as it is by then. -/
abbrev Lookup := EStateM ConfigFault Session

namespace Session

def codesAt (s : Session) (origin : Origin) : CodeSet :=
  match s.lists.lookup origin, origin with
  | some codes, _ => codes
  | none, .standard => Convention.pep257.codes
  | none, _ => []

def setCodes (s : Session) (origin : Origin) (codes : CodeSet) : Session :=
  { s with lists := (origin, codes) :: s.lists.filter fun l => l.1 ≠ origin }

def record (s : Session) (lines : List LogLine) : Session :=
  { s with trail := s.trail ++ lines.map .log }

/-- A new session, in which only the standard list keeps its changes. -/
def renew (s : Session) : Session := { lists := s.lists.filter fun l => l.1 = .standard }

def newCodes (s : Session) : Start → Option CodeSet
  | .standard => none
  | .copied => some (s.codesAt .standard)
  | .given codes => some codes

def startingCodes (s : Session) (settings : Settings) : Except ConfigFault (Option CodeSet) :=
  settings.start.map s.newCodes

end Session

namespace Lookup

def ofLogged {α : Type} (x : Logged ConfigFault α) : Lookup α := fun s =>
  match x.run [] with
  | .ok a lines => .ok a (s.record lines)
  | .error e lines => .error e (s.record lines)

def log (level : Level) (text : Text) : Lookup Unit := modify (·.record [{ level, text }])

def startingCodes (settings : Settings) : Lookup (Option CodeSet) := do
  match (← get).startingCodes settings with
  | .ok codes => return codes
  | .error e => throw e

def revise (origin : Origin) (settings : Settings) : Lookup Unit :=
  modify fun s =>
    s.setCodes origin (CodeSet.revise settings.addSelect settings.addIgnore (s.codesAt origin))

/-- A list of codes for settings: a new one, if they name codes to start from, and otherwise the
standard one, which is changed in place. -/
def makeCodes (origin : Origin) (settings : Settings) : Lookup Origin := do
  match ← startingCodes settings with
  | some codes =>
    modify fun s => s.setCodes origin codes
    revise origin settings
    return origin
  | none =>
    revise .standard settings
    return .standard

def created (codes : Origin) (settings : Settings) : Config where
  codes := codes
  files := settings.files.getD (.text defaultFiles)
  folders := settings.folders.getD (.text defaultFolders)
  ignoreDecorators := settings.ignoreDecorators.getD (.text defaultIgnoredDecorators)
  propertyDecorators := settings.propertyDecorators.getD (.text defaultPropertyDecorators)

def create (origin : Origin) (settings : Settings) : Lookup Config := do
  return created (← makeCodes origin settings) settings

/-- A value of a folder, or the one of the folder above, if the former is not given or empty. -/
def prefer (own : Option Value) (above : Value) : Value :=
  match own with
  | some v => if v.isGiven then v else above
  | none => above

/-- A configuration from settings and that of the folder above, with its list of codes. -/
def merged (codes : Origin) (above : Config) (settings : Settings) : Config where
  codes := codes
  files := prefer settings.files above.files
  folders := prefer settings.folders above.folders
  ignoreDecorators := prefer settings.ignoreDecorators above.ignoreDecorators
  propertyDecorators := prefer settings.propertyDecorators above.propertyDecorators

/-- Makes a configuration from settings and that of the folder above. The codes are a list of its own. -/
def merge (origin : Origin) (above : Config) (settings : Settings) : Lookup Config := do
  let starting ← startingCodes settings
  modify fun s => s.setCodes origin (starting.getD (s.codesAt above.codes))
  revise origin settings
  return merged origin above settings

def overriddenBy (o : Override) (c : Config) : Config where
  codes := o.codes.getD c.codes
  files := o.files.getD c.files
  folders := o.folders.getD c.folders
  ignoreDecorators := o.ignoreDecorators.getD c.ignoreDecorators
  propertyDecorators := o.propertyDecorators.getD c.propertyDecorators

def settings : Lookup Settings := do
  match (← get).settings with
  | some s => return s
  | none => throw .unsettled

/-- Lets the command line have the last word. Its codes are added to and taken from the list itself. -/
def finish (c : Config) : Lookup Config := do
  match (← get).override with
  | none => throw .unsettled
  | some o =>
    let c := overriddenBy o c
    revise c.codes (← settings)
    return c

def locationOf (names : List Text) : Text := '/' :: Text.join "/" names.reverse

inductive Plan where
  | borrow
  | fresh (own : Settings)
  | merge (own : Settings)

def plan (w : Workspace) (names : List Text) : Lookup Plan := do
  match ← ofLogged (Config.fileIn? w (locationOf names)) with
  | none => if names.isEmpty then return .fresh (← settings) else return .borrow
  | some file =>
    let (own, inherits) ← ofLogged (Config.settingsIn w file)
    return if !names.isEmpty && inherits then .merge (own.getD {}) else .fresh (own.getD {})

def follow (names : List Text) (above : Lookup Config) : Plan → Lookup Config
  | .borrow => above
  | .fresh own => create (.folder names) own
  | .merge own => do merge (.folder names) (← above) own

def ofFolder (w : Workspace) (names : List Text) (above : Lookup Config) : Lookup Config := do
  match (← get).known.lookup names with
  | some c => return c
  | none => follow names above (← plan w names)

def atFolder (w : Workspace) (names : List Text) (above : Lookup Config) : Lookup Config := do
  log .debug "No config file specified, discovering."
  let c ← finish (← ofFolder w names above)
  modify fun s => { s with known := (names, c) :: s.known.filter fun k => k.1 ≠ names }
  return c

/-- The configuration of a folder or of the folder of a file, given by its names. Folders without a file
take over the configuration of the folder above. -/
def discover (w : Workspace) : List Text → Lookup Config
  | [] => atFolder w [] (throw .unsettled)
  | n :: up =>
    if w.files.isFolder (locationOf (n :: up)) then atFolder w (n :: up) (discover w up)
    else
      match up with
      | [] => atFolder w [] (throw .unsettled)
      | m :: more => atFolder w (m :: more) (discover w more)

def noSectionText : Text :=
  "Configuration file does not contain a pydocstyle section. Using default configuration."

/-- The settings in the only file, or those of the command line, if it has none. -/
def namedSettings (w : Workspace) (location : Text) : Lookup Settings := do
  match ← ofLogged (Config.settingsIn w location) with
  | (some own, _) => return own
  | (none, _) =>
    log .warning noSectionText
    settings

def keptNamed (w : Workspace) (location : Text) : Lookup Config := do
  match (← get).knownNamed with
  | some c => return c
  | none =>
    let c ← finish (← create .namedFile (← namedSettings w location))
    modify fun s => { s with knownNamed := some c }
    return c

def namedMissing (location : Text) : ConfigFault :=
  .illegal ("Configuration file ".toList ++ location.quoted ++
    " specified via --config was not found.".toList)

def ofNamedFile (w : Workspace) (location : Text) : Lookup Config := do
  log .debug ("Using config file ".toList ++ location.quoted)
  if w.files.exists? location then keptNamed w location else throw (namedMissing location)

def namesOf (location : Text) : List Text :=
  ((Text.splitOn '/' location).filter (!·.isEmpty)).reverse

def config (w : Workspace) (location : Text) : Lookup Config := do
  match (← get).run with
  | none => throw .unsettled
  | some run =>
    match run.config with
    | none => discover w (namesOf location)
    | some file => ofNamedFile w file

end Lookup

inductive StartFault where
  | early (ending : EarlyEnd)
  | config (fault : ConfigFault)
  deriving DecidableEq, Repr

namespace Session

/-- The codes that a command line names to start from go into a list of its own. -/
def overridingCodes (settings : Settings) : Lookup (Option Origin) := do
  if settings.isExclusive then
    let turn := (← get).turn
    return some (← Lookup.makeCodes (.commandLine turn) settings)
  else return none

def overrideOf (settings : Settings) : Lookup Override := do
  let codes ← overridingCodes settings
  return { codes, files := settings.files, folders := settings.folders
           ignoreDecorators := settings.ignoreDecorators
           propertyDecorators := settings.propertyDecorators }

/-- Takes up what is read from a command line. Settings and targets are kept even if they are not
accepted. -/
def takeUp (a : Arguments) : Lookup Override := do
  let settings ← Lookup.ofLogged (Config.expandGiven a.given)
  let targets := if a.targets.isEmpty then [".".toList] else a.targets
  modify fun s => { s with settings := some settings, targets := some targets }
  Lookup.ofLogged (Config.accept settings [])
  modify fun s => { s with run := some a.run }
  let o ← overrideOf settings
  modify fun s => { s with override := some o, turn := s.turn + 1 }
  return o

def start (words : List Text) : EStateM StartFault Session Override := fun s =>
  match Arguments.ofWords words with
  | .error e => .error (.early e) s
  | .ok a =>
    match (takeUp a).run s with
    | .ok o s => .ok o s
    | .error e s => .error (.config e) s

end Session

end DocLint
