import DocLint.Log
import DocLint.Rule
import DocLint.Text.Strip
import DocLint.Toml.Section

/-!
Settings of a check: which codes it reports, on which files, and which decorators matter to it.
-/

set_option autoImplicit false

namespace DocLint

open Toml (Value)

/-! ### Codes by their beginnings -/

namespace CodeSet

def fits (part code : Text) : Bool := !part.strip.isEmpty && part.strip.isPrefixOf code

def expand (parts : List Text) : CodeSet := all.filter fun code => parts.any fun p => fits p code

def unknown (parts : List Text) : List Text :=
  (parts.map Text.strip).filter fun p => !p.isEmpty && !all.any fun code => p.isPrefixOf code

def revise (add remove codes : CodeSet) : CodeSet := without (union codes add) remove

end CodeSet

def unknownCodeWarning (part : Text) : LogLine :=
  { level := .warning
    text := "Error code passed is not a prefix of any known errors: ".toList ++ part }

/-! ### Settings as given -/

inductive SettingKey where
  | convention | select | ignore | addSelect | addIgnore | files | folders | ignoreDecorators
  | propertyDecorators
  deriving DecidableEq, Repr

namespace SettingKey

def all : List SettingKey :=
  [.convention, .select, .ignore, .addSelect, .addIgnore, .files, .folders, .ignoreDecorators,
    .propertyDecorators]

def name : SettingKey → Text
  | .convention => "convention"
  | .select => "select"
  | .ignore => "ignore"
  | .addSelect => "add-select"
  | .addIgnore => "add-ignore"
  | .files => "match"
  | .folders => "match-dir"
  | .ignoreDecorators => "ignore-decorators"
  | .propertyDecorators => "property-decorators"

def isForFiles : SettingKey → Bool
  | .propertyDecorators => false
  | _ => true

/-- The setting with a name in a configuration file, where an underscore stands for a hyphen. -/
def ofFileName? (name : Text) : Option SettingKey :=
  let spelled := name.map fun c => if c = '_' then '-' else c
  all.find? fun k => k.isForFiles && k.name == spelled

end SettingKey

structure GivenSettings where
  convention : Option Value := none
  select : Option Value := none
  ignore : Option Value := none
  addSelect : Option Value := none
  addIgnore : Option Value := none
  files : Option Value := none
  folders : Option Value := none
  ignoreDecorators : Option Value := none
  propertyDecorators : Option Value := none
  deriving Repr

namespace GivenSettings

def set (g : GivenSettings) (key : SettingKey) (v : Value) : GivenSettings :=
  match key with
  | .convention => { g with convention := some v }
  | .select => { g with select := some v }
  | .ignore => { g with ignore := some v }
  | .addSelect => { g with addSelect := some v }
  | .addIgnore => { g with addIgnore := some v }
  | .files => { g with files := some v }
  | .folders => { g with folders := some v }
  | .ignoreDecorators => { g with ignoreDecorators := some v }
  | .propertyDecorators => { g with propertyDecorators := some v }

end GivenSettings

/-! ### Values where nothing is given -/

def defaultFiles : Text := "(?!test_).*\\.py"

def defaultFolders : Text := "[^\\.].*"

def defaultIgnoredDecorators : Text := []

def defaultPropertyDecorators : Text := "property,cached_property,functools.cached_property"

/-! ### Settings with their codes -/

/-- Settings in which lists of codes are expanded. The codes to start from are at most one of
`select`, `ignore` and `convention`. -/
structure Settings where
  convention : Option Value := none
  select : Option CodeSet := none
  ignore : Option CodeSet := none
  addSelect : CodeSet := []
  addIgnore : CodeSet := []
  files : Option Value := none
  folders : Option Value := none
  ignoreDecorators : Option Value := none
  propertyDecorators : Option Value := none
  deriving Repr

inductive CodeListFault where
  | notAList
  | itemNotText
  deriving DecidableEq, Repr

def textsOf? : List Value → Option (List Text)
  | [] => some []
  | .text t :: vs => (textsOf? vs).map (t :: ·)
  | _ :: _ => none

/-- The parts of a list of codes: the items of an array, or what stands between the commas of a text. -/
def codeParts : Value → Except CodeListFault (List Text)
  | .text t => .ok (Text.splitOn ',' t)
  | .array items =>
    match textsOf? items with
    | some parts => .ok parts
    | none => .error .itemNotText
  | _ => .error .notAList

/-- The codes that begin with a part, where the parts of a text are its characters. -/
def expandParts : Value → Except CodeListFault CodeSet
  | .text t => .ok (CodeSet.expand (t.map fun c => [c]))
  | v => (codeParts v).map CodeSet.expand

/-- The codes of a list, with a warning for each part with which no code begins. -/
def codesOf (v : Value) : Except CodeListFault (CodeSet × List LogLine) :=
  (codeParts v).map fun parts =>
    let distinct := (parts.map Text.strip).eraseDups
    (CodeSet.expand distinct, (CodeSet.unknown distinct).map unknownCodeWarning)

namespace GivenSettings

def expandList : Option Value → Logged CodeListFault (Option CodeSet)
  | none => return none
  | some v =>
    match codesOf v with
    | .error e => throw e
    | .ok (codes, warnings) => do
      tell warnings
      return some codes

def expand (g : GivenSettings) : Logged CodeListFault Settings := do
  let ignore ← expandList g.ignore
  let select ← expandList g.select
  let addIgnore ← expandList g.addIgnore
  let addSelect ← expandList g.addSelect
  return { convention := g.convention, select, ignore, addSelect := addSelect.getD []
           addIgnore := addIgnore.getD [], files := g.files, folders := g.folders
           ignoreDecorators := g.ignoreDecorators, propertyDecorators := g.propertyDecorators }

end GivenSettings

inductive SettingsFault where
  | exclusive (first second : Text)
  | unknownConvention (name : Text)
  | conventionType
  deriving DecidableEq, Repr

namespace SettingsFault

def log : SettingsFault → List LogLine
  | .exclusive a b =>
    [{ level := .error
       text := "Cannot pass both ".toList ++ a ++ " and ".toList ++ b ++
        ". They are mutually exclusive.".toList }]
  | .unknownConvention name =>
    [{ level := .error
       text := "Illegal convention '".toList ++ name ++ "'. Possible conventions: ".toList ++
        Text.join ", " (Convention.all.map Convention.name) }]
  | .conventionType => []

end SettingsFault

namespace Settings

def givesCodes : Option CodeSet → Bool
  | some (_ :: _) => true
  | _ => false

def givesValue : Option Value → Bool
  | some v => v.isGiven
  | none => false

/-- Settings can be used if at most one way to choose codes is given, an empty one not counted, and the
convention is known. -/
def validate (s : Settings) : Except SettingsFault Unit :=
  let ignore := givesCodes s.ignore
  let select := givesCodes s.select
  let convention := givesValue s.convention
  if ignore && select then .error (.exclusive "ignore" "select")
  else if ignore && convention then .error (.exclusive "ignore" "convention")
  else if select && convention then .error (.exclusive "select" "convention")
  else
    match s.convention with
    | none => .ok ()
    | some v =>
      if !v.isGiven then .ok ()
      else
        match v with
        | .array _ | .table _ => .error .conventionType
        | .text t => if (Convention.ofName? t).isSome then .ok () else .error (.unknownConvention t)
        | v => .error (.unknownConvention v.shown)

/-- Whether some way to choose the codes to start from is named, even an empty one. -/
def isExclusive (s : Settings) : Bool := s.ignore.isSome || s.select.isSome || s.convention.isSome

end Settings

end DocLint
