import DocLint.Check
import DocLint.Outline.Read

/-!
Violations: findings with the subject they are about, and the run of all checks over a source
text.
-/

set_option autoImplicit false

namespace DocLint

variable [Resources]

structure Violation where
  finding : Finding
  subject : Subject
  check : Check

/-- Source lines with their numbers, which are as wide as the last one needs: at most seven, and a
mark behind the seventh. -/
def numberedLines (source : Text) (start : Nat) : Text :=
  let lines := (source.splitLines.reverse.dropWhile Text.isBlank).reverse
  let width := (Text.ofNat (start + lines.length)).length
  let row := fun (line : Text) (i : Nat) =>
    Text.padLeft width (Text.ofNat (start + i)) ++ ": ".toList ++ line
  ((lines.take 7).zipIdx.flatMap fun (line, i) => row line i) ++
    if lines.length > 6 then "        ...\n".toList else []

structure ReportStyle where
  explain : Bool := false
  source : Bool := false
  deriving DecidableEq, Repr

namespace Violation

def code (v : Violation) : Text := v.finding.code

def line (v : Violation) : Nat := v.subject.line

def file (v : Violation) : Text := v.subject.root.name

def message (v : Violation) : Text := v.finding.message

def explanation (v : Violation) : Text :=
  Text.join "\n" (v.check.explanation.map ("        ".toList ++ ·))

def appendix (style : ReportStyle) (v : Violation) : Text :=
  let gap := "\n\n".toList
  let lines := fun _ : Unit => numberedLines v.subject.source v.subject.start
  match style.explain, style.source with
  | true, true => gap ++ v.explanation ++ gap ++ lines () ++ "\n".toList
  | false, true => gap ++ lines () ++ "\n".toList
  | true, false => gap ++ v.explanation ++ gap
  | false, false => []

def report (style : ReportStyle) (v : Violation) : Except PublicityFault Text := do
  let subject ← v.subject.shown
  return v.file ++ ":".toList ++ Text.ofNat v.line ++ " ".toList ++ subject ++ ":\n        ".toList ++
    v.message ++ v.appendix style

/-- Whether one violation is reported before another: by file, then by line. -/
def comesBefore (a b : Violation) : Bool :=
  Text.before a.file b.file || (a.file == b.file && a.line < b.line)

end Violation

/-- The violations found before checking ended, and why it broke off, if it did. -/
structure Verdict where
  violations : List Violation := []
  fault : Option CheckFault := none

namespace Verdict

def append (a b : Verdict) : Verdict :=
  match a.fault with
  | some _ => a
  | none => { violations := a.violations ++ b.violations, fault := b.fault }

instance : Append Verdict := ⟨append⟩

end Verdict

namespace CheckOptions

def skips (o : CheckOptions) (s : Subject) : Bool :=
  let switchedOff := !o.ignoreComments && s.skipped == "all".toList
  let decorated := match o.ignoredDecorators with
    | none => false
    | some p => (s.definition?.map fun d => d.decorators.any fun x => p.occurs x.name).getD false
  switchedOff || decorated

def keeps (o : CheckOptions) (s : Subject) (f : Finding) : Bool :=
  o.ignoreComments || !Text.containsText f.code s.skipped

/-- Makes some checks on a subject. A terminal check that finds something is the last one. -/
def apply (o : CheckOptions) (s : Subject) : List Check → Verdict
  | [] => {}
  | c :: cs =>
    if !c.appliesTo s || o.skips s then o.apply s cs
    else
      let outcome := c.run o s
      let kept := outcome.findings.filter (o.keeps s)
      let violations := kept.map fun f => { finding := f, subject := s, check := c : Violation }
      if c.isTerminal && !kept.isEmpty then { violations := violations.take 1 }
      else
        match outcome.fault with
        | some fault => { violations, fault := some fault }
        | none =>
          let rest := o.apply s cs
          { violations := violations ++ rest.violations, fault := rest.fault }

def applyAll (o : CheckOptions) : List Subject → Verdict
  | [] => {}
  | s :: ss => o.apply s Check.all ++ o.applyAll ss

end CheckOptions

def Module.check (o : CheckOptions) (m : Module) : Verdict := o.applyAll m.subjects

def checkSource (o : CheckOptions) (file source : Text) : Except OutlineFault Verdict :=
  (Module.ofText file source).map (·.check o)

end DocLint
