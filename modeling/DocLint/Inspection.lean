import DocLint.FileTree
import DocLint.Log
import DocLint.Violation

/-!
Inspections: the checks made on files, with what is found and what goes wrong.
-/

set_option autoImplicit false

namespace DocLint

variable [Resources]

/-- Why a file cannot be checked. The inspection of others goes on. -/
inductive FileTrouble where
  | path (location : Text) (fault : PathFault)
  | rejected
  | unexpected (token : Token) (expected : TokenKind)
  | unended (location : Text)
  deriving DecidableEq, Repr

namespace FileTrouble

def message : FileTrouble → Text
  | .path location fault =>
    "[Errno ".toList ++ Text.ofNat fault.number ++ "] ".toList ++ fault.reason ++ ": ".toList ++
      location.quoted
  | .rejected => "Cannot parse file."
  | .unexpected token expected => Outline.unexpectedMessage token expected
  | .unended location => "invalid syntax in file ".toList ++ location

end FileTrouble

inductive InspectionFault where
  | decoding (fault : DecodeFault)
  | scan (fault : ScanFault)
  | outline (fault : Outline.Fault)
  | check (fault : CheckFault)
  deriving DecidableEq, Repr

inductive InspectionItem where
  | violation (v : Violation)
  | trouble (t : FileTrouble)

/-- What an inspection tells, up to where it breaks off, if it does. -/
structure Inspection where
  items : List InspectionItem := []
  log : List LogLine := []
  fault : Option InspectionFault := none

namespace Inspection

def append (a b : Inspection) : Inspection :=
  match a.fault with
  | some _ => a
  | none => { items := a.items ++ b.items, log := a.log ++ b.log, fault := b.fault }

instance : Append Inspection := ⟨append⟩

def opening (location : Text) : LogLine :=
  { level := .info, text := "Checking file ".toList ++ location ++ ".".toList }

def ofTrouble (location : Text) (log : List LogLine) (t : FileTrouble) : Inspection :=
  { items := [.trouble t]
    log := log ++ [{ level := .warning
                     text := "Error in file ".toList ++ location ++ ": ".toList ++ t.message }] }

def ofSource (o : CheckOptions) (codes : CodeSet) (location source : Text) : Inspection :=
  let (outline, notes) := Outline.ofText location source
  let log := opening location :: notes.flatMap fun n =>
    n.messages.map fun t => { level := .debug, text := t : LogLine }
  match outline with
  | .error .rejected => ofTrouble location log .rejected
  | .error (.read (.unexpected t k)) => ofTrouble location log (.unexpected t k)
  | .error (.read f) => { log, fault := some (.outline f) }
  | .error (.scan .inconsistentDedent) => { log, fault := some (.scan .inconsistentDedent) }
  | .error (.scan _) => { items := [.trouble (.unended location)], log }
  | .ok m =>
    let verdict := m.check o
    { items := (verdict.violations.filter fun v => codes.contains v.code).map .violation
      log
      fault := verdict.fault.map .check }

def ofFile (t : FileTree) (o : CheckOptions) (codes : CodeSet) (location : Text) : Inspection :=
  match t.read location with
  | .error e => ofTrouble location [opening location] (.path location e)
  | .ok bytes =>
    match sourceText bytes with
    | .error e => { log := [opening location], fault := some (.decoding e) }
    | .ok source => ofSource o codes location source

def ofFiles (t : FileTree) (o : CheckOptions) (codes : CodeSet) : List Text → Inspection
  | [] => {}
  | location :: locations => ofFile t o codes location ++ ofFiles t o codes locations

end Inspection

/-- The codes to report: some selected ones, all but some ignored ones, or those of the standard
convention. Both choices together are refused. -/
def reportedCodes (selected ignored : Option CodeSet) : Option CodeSet :=
  match selected, ignored with
  | some _, some _ => none
  | some s, none => some s
  | none, some i => some (CodeSet.all.without i)
  | none, none => some Convention.pep257.codes

def bothChoicesMessage : Text :=
  "Cannot pass both select and ignore. They are mutually exclusive."

end DocLint
