import DocLint.FileTree
import DocLint.Ini
import DocLint.Settings
import DocLint.Toml.Document

/-!
Configuration files: which files are looked for, and the settings in them.
-/

set_option autoImplicit false

namespace DocLint

open Toml (Value Table)

/-- The files of a run, and whether configuration tables can be read. -/
structure Workspace where
  files : FileTree
  readsTables : Bool := true

inductive ConfigFault where
  | illegal (message : Text)
  | uninitialized
  | unsettled
  | ini (fault : IniFault)
  | malformedTable
  | undecodable
  | notASwitch
  | section (fault : Toml.SectionFault)
  | codes (fault : CodeListFault)
  | unknownConvention
  | conventionType
  | malformedPattern
  | patternType
  deriving DecidableEq, Repr

namespace Config

/-- Files in which configurations are looked for, the first one found counts. -/
def fileNames : List Text := Text.literals
  ["setup.cfg", "tox.ini", ".pydocstyle", ".pydocstyle.ini", ".pydocstylerc", ".pydocstylerc.ini",
    "pyproject.toml", ".pep257"]

def sectionNames : List Text := Text.literals ["pydocstyle", "pep257"]

inductive Source where
  | ini (i : Ini)
  | table (t : Table)

def Source.hasSection (name : Text) : Source → Except ConfigFault Bool
  | .ini i => .ok (i.hasSection name)
  | .table t =>
    match t.section? name with
    | .ok found => .ok found.isSome
    | .error e => .error (.section e)

def Source.firstSection? (s : Source) : List Text → Except ConfigFault (Option Text)
  | [] => .ok none
  | name :: names => do
    if ← s.hasSection name then return some name else s.firstSection? names

def Source.section? (s : Source) : Except ConfigFault (Option Text) := s.firstSection? sectionNames

def Source.options (s : Source) (name : Text) : Except ConfigFault Table :=
  match s with
  | .ini i => .ok ((i.values name).map fun (key, v) => (key, .text v))
  | .table t =>
    match t.sectionOf name with
    | .ok options => .ok options
    | .error e => .error (.section e)

def ignoredWarning (location : Text) : LogLine :=
  { level := .warning
    text := "The ".toList ++ location ++ " configuration file was ignored, because the ".toList ++
      "\x60tomli\x60 package is not installed.".toList }

def isTableFile (location : Text) : Bool := ".toml".toList.isSuffixOf location

def liftExcept {α : Type} : Except ConfigFault α → Logged ConfigFault α
  | .ok a => return a
  | .error e => throw e

def readTable (w : Workspace) (location : Text) : Logged ConfigFault (Option Table) :=
  match w.files.read location with
  | .error _ => return none
  | .ok bytes =>
    if !w.readsTables then do
      tell [ignoredWarning location]
      return none
    else
      match Encoding.utf8? bytes with
      | none => throw .undecodable
      | some t =>
        match Toml.ofText? t with
        | none => throw .malformedTable
        | some table => return some table

def readIni (w : Workspace) (location : Text) : Logged ConfigFault (Option Ini) :=
  match w.files.read location with
  | .error _ => return none
  | .ok bytes =>
    match plainText? bytes with
    | none => throw .undecodable
    | some t =>
      match Ini.ofText t with
      | .error e => throw (.ini e)
      | .ok i => return some i

def readSource (w : Workspace) (location : Text) : Logged ConfigFault (Option Source) :=
  if isTableFile location then (·.map .table) <$> readTable w location
  else (·.map .ini) <$> readIni w location

def firstFile? (w : Workspace) (folder : Text) : List Text → Logged ConfigFault (Option Text)
  | [] => return none
  | name :: names => do
    let location := Location.join folder name
    match ← readSource w location with
    | none => firstFile? w folder names
    | some source =>
      match ← liftExcept source.section? with
      | some _ => return some location
      | none => firstFile? w folder names

def fileIn? (w : Workspace) (folder : Text) : Logged ConfigFault (Option Text) :=
  firstFile? w (if w.files.isFile folder then Location.parent folder else folder) fileNames

structure FileSettings where
  given : GivenSettings := {}
  inherits : Bool := true

def inherits (s : Source) (sectionName : Text) (v : Value) : Except ConfigFault Bool :=
  match s, v with
  | .ini _, .text t =>
    match Ini.switch? t with
    | some b => .ok b
    | none => .error .notASwitch
  | _, .boolean b => .ok b
  | _, .table _ => .error (.section (.isSection "inherit" sectionName))
  | _, _ => .error (.section (.wrongType "inherit" sectionName .boolean))

def takeOption (s : Source) (sectionName : Text) (f : FileSettings) (option : Text × Value) :
    Logged ConfigFault FileSettings := do
  let (name, v) := option
  if name = "inherit" then
    return { f with inherits := ← liftExcept (inherits s sectionName v) }
  else
    match SettingKey.ofFileName? name with
    | none => do
      tell [{ level := .warning, text := "Unknown option '".toList ++ name ++ "' ignored".toList }]
      return f
    | some key =>
      match v with
      | .table _ => throw (.section (.isSection name sectionName))
      | v => return { f with given := f.given.set key v }

def expandGiven (g : GivenSettings) : Logged ConfigFault Settings :=
  fun log =>
    match g.expand.run log with
    | .ok s log => .ok s log
    | .error e log => .error (.codes e) log

def accept (s : Settings) (message : Text) : Logged ConfigFault Unit :=
  match s.validate with
  | .ok () => return ()
  | .error .conventionType => throw .conventionType
  | .error e => do
    tell e.log
    throw (.illegal message)

/-- The settings in a file, if it has any, and whether those of the folder above are kept. -/
def settingsIn (w : Workspace) (location : Text) : Logged ConfigFault (Option Settings × Bool) := do
  match ← readSource w location with
  | none => return (none, true)
  | some source =>
    match ← liftExcept source.section? with
    | none => return (none, true)
    | some name =>
      let options ← liftExcept (source.options name)
      let f ← options.foldlM (takeOption source name) {}
      let settings ← expandGiven f.given
      accept settings ("in file: ".toList ++ location)
      return (some settings, f.inherits)

end Config

/-- Reads documents of tables one over the other. The files that were read are told, and a fault keeps
what was read before it. -/
def Toml.gather (w : Workspace) : List Text → Table → Except ConfigFault (List Text) × Table
  | [], config => (.ok [], config)
  | location :: locations, config =>
    match (Config.readTable w location).run [] with
    | .error e _ => (.error e, config)
    | .ok none _ => gather w locations config
    | .ok (some table) _ =>
      let (told, config) := gather w locations (config.merge table)
      (told.map (location :: ·), config)

end DocLint
