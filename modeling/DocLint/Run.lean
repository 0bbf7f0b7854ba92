import DocLint.CommandLine.Help
import DocLint.Config.Selection
import DocLint.Inspection

/-!
A run of the command line: from its words and the files to the output and the exit status.
-/

set_option autoImplicit false

namespace DocLint

variable [Resources]

inductive RunFault where
  | config (fault : ConfigFault)
  | inspection (fault : InspectionFault)
  | report (fault : PublicityFault)
  deriving DecidableEq, Repr

inductive RunEnd where
  | exit (status : Nat)
  | broken (fault : RunFault)
  deriving DecidableEq, Repr

structure Transcript where
  out : Text := []
  err : Text := []
  ending : RunEnd
  deriving DecidableEq, Repr

namespace Run

def isShown (o : RunOptions) (level : Level) : Bool :=
  match level with
  | .debug => o.debug
  | .info => o.debug || o.verbose
  | _ => false

def outOf (o : RunOptions) (log : List LogLine) : Text :=
  log.flatMap fun l => if isShown o l.level then l.text ++ "\n".toList else []

def errOf (log : List LogLine) : Text :=
  log.flatMap fun l => if l.level.isTrouble then l.labelled ++ "\n".toList else []

def logOf (trail : List Event) : List LogLine :=
  trail.filterMap fun
    | .log l => some l
    | .file _ => none

def optionsOf (searchPath : List Path) (s : Selected) : CheckOptions :=
  { ignoredDecorators := s.ignoreDecorators.map (·.2)
    properties := s.propertyDecorators.getD []
    searchPath }

/-- Inspects the chosen files of a trail, with the log of the trail around them. -/
def inspect (w : Workspace) (searchPath : List Path) : List Event → Inspection
  | [] => {}
  | .log l :: rest => { log := [l] } ++ inspect w searchPath rest
  | .file s :: rest =>
    Inspection.ofFile w.files (optionsOf searchPath s) s.codes s.location ++
      inspect w searchPath rest

/-- The reports of violations, each on lines of its own, up to the first that cannot be told. -/
def reports (style : ReportStyle) : List InspectionItem → Text × Option PublicityFault
  | [] => ([], none)
  | .trouble _ :: rest => reports style rest
  | .violation v :: rest =>
    match v.report style with
    | .error e => ([], some e)
    | .ok t =>
      let (more, fault) := reports style rest
      (t ++ "\n".toList ++ more, fault)

def status (items : List InspectionItem) : Nat := if items.isEmpty then 0 else 1

def conclude (o : RunOptions) (out err : Text) (items : List InspectionItem) : Transcript :=
  let (text, fault) := reports { explain := o.explain, source := o.source } items
  let out := out ++ text
  match fault with
  | some e => { out, err, ending := .broken (.report e) }
  | none =>
    { out := out ++ if o.count then Text.ofNat items.length ++ "\n".toList else []
      err
      ending := .exit (status items) }

def withOptions (w : Workspace) (searchPath : List Path) (o : RunOptions) (err : Text) (s : Session) :
    Transcript :=
  let (fault, s) := match (Lookup.chooseFiles w).run { s with trail := [] } with
    | .ok () s => (none, s)
    | .error e s => (some e, s)
  let start : LogLine := { level := .debug, text := "starting in debug mode." }
  let inspection := inspect w searchPath (.log start :: s.trail)
  let out := outOf o inspection.log
  let err := err ++ errOf inspection.log
  match inspection.fault, fault with
  | some f, _ => { out, err, ending := .broken (.inspection f) }
  | none, some (.illegal message) =>
    { out, err := err ++ errOf [{ level := .error, text := message }], ending := .exit 2 }
  | none, some f => { out, err, ending := .broken (.config f) }
  | none, none => conclude o out err inspection.items

def version : Text := "0.0.0-dev"

end Run

def run (w : Workspace) (searchPath : List Path) (words : List Text) : Transcript :=
  match (Session.start words).run {} with
  | .error (.early .help) _ => { out := Help.text, ending := .exit 0 }
  | .error (.early .version) _ => { out := Run.version ++ "\n".toList, ending := .exit 0 }
  | .error (.early (.misuse f)) _ => { err := Help.misuse f, ending := .exit 2 }
  | .error (.config (.illegal _)) s =>
    { err := Run.errOf (Run.logOf s.trail), ending := .exit 2 }
  | .error (.config f) s =>
    { err := Run.errOf (Run.logOf s.trail), ending := .broken (.config f) }
  | .ok _ s =>
    Run.withOptions w searchPath (s.run.getD {}) (Run.errOf (Run.logOf s.trail)) s

end DocLint
