import DocLint.Text.Case
import DocLint.Text.Quoted
import DocLint.Toml.Value

/-!
Sections for tools: tables below the key `tool`, named by their path, with options of checked types.
-/

set_option autoImplicit false

namespace DocLint.Toml

inductive OptionType where
  | boolean | integer
  deriving DecidableEq, Repr

def OptionType.label : OptionType → Text
  | .boolean => "bool"
  | .integer => "int"

def OptionType.admits : OptionType → Value → Bool
  | .boolean, .boolean _ => true
  | .integer, .integer _ | .integer, .boolean _ => true
  | _, _ => false

inductive SectionFault where
  | notATable
  | noSection (name : Text)
  | noOption (option name : Text)
  | isSection (option name : Text)
  | wrongType (option name : Text) (wanted : OptionType)
  deriving DecidableEq, Repr

namespace SectionFault

def message? : SectionFault → Option Text
  | .notATable => none
  | .noSection name => some ("No section: ".toList ++ name.quoted)
  | .noOption option name =>
    some ("No option ".toList ++ option.quoted ++ " in section: ".toList ++ name.quoted)
  | .isSection option name =>
    some ("Expected ".toList ++ name ++ ".".toList ++ option ++
      " to be an option, not a section.".toList)
  | .wrongType option name wanted =>
    some ("The type of ".toList ++ name ++ ".".toList ++ option ++ " should be <class '".toList ++
      wanted.label ++ "'>".toList)

end SectionFault

def valueAt : List Text → Value → Except SectionFault (Option Value)
  | [], v => .ok (some v)
  | k :: ks, .table t =>
    match t.lookup k with
    | none => .ok none
    | some v => valueAt ks v
  | _ :: _, _ => .error .notATable

namespace Table

def section? (config : Table) (name : Text) : Except SectionFault (Option Table) := do
  match config.lookup "tool".toList with
  | none => return none
  | some tools =>
    match ← valueAt (Text.splitOn '.' name) tools with
    | some (.table t) => return some t
    | _ => return none

def sectionOf (config : Table) (name : Text) : Except SectionFault Table := do
  match ← config.section? name with
  | some t => return t
  | none => throw (.noSection name)

def options (config : Table) (name : Text) : Except SectionFault (List Text) := do
  return (← config.sectionOf name).map (·.1)

def option (config : Table) (name option : Text) (wanted : Option OptionType) :
    Except SectionFault Value := do
  let section_ ← config.sectionOf name
  let option := option.lower
  match section_.lookup option with
  | none => throw (.noOption option name)
  | some (.table _) => throw (.isSection option name)
  | some v =>
    match wanted with
    | none => return v
    | some type => if type.admits v then return v else throw (.wrongType option name type)

end Table

end DocLint.Toml
