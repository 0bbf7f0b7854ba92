import DocLint.Grammar.Accept
import DocLint.Rule
import DocLint.Subject

/-!
Findings of checks: a broken rule with what was found.
-/

set_option autoImplicit false

namespace DocLint

variable [Resources]

/-- The text of a finding: code, summary, and the context filled in, if there is one. -/
def findingText (code summary : Text) (context : Option Text) (parameters : List Parameter) :
    Except TemplateFault Text :=
  let opening := code ++ ": ".toList ++ summary
  match context with
  | none => .ok opening
  | some template =>
    (Template.render template parameters).map fun t =>
      opening ++ " (".toList ++ t ++ ")".toList

structure Finding where
  rule : Rule
  parameters : List Parameter := []
  deriving DecidableEq, Repr

namespace Finding

def code (f : Finding) : Text := f.rule.code

/-- The text of a finding, where a finding with too few parameters has none of them filled in. -/
def message (f : Finding) : Text :=
  match findingText f.code f.rule.summary f.rule.context f.parameters with
  | .ok t => t
  | .error _ => f.code ++ ": ".toList ++ f.rule.summary

end Finding

def Rule.with (r : Rule) (texts : List Text) : Finding :=
  { rule := r, parameters := texts.map .text }

def Rule.count (r : Rule) (n : Nat) : Finding := { rule := r, parameters := [.number n] }

def Rule.plain (r : Rule) : Finding := { rule := r }

inductive CheckFault where
  | malformedDocstring
  | byteDocstring
  | formattedDocstring
  | noWord
  | noQuotes
  | noIndent
  | noLine
  | noName
  | publicity (fault : PublicityFault)
  | signature (fault : Grammar.SignatureFault)
  deriving DecidableEq, Repr

/-- What a check finds; if it breaks off, what it found before. -/
structure Outcome where
  findings : List Finding := []
  fault : Option CheckFault := none
  deriving DecidableEq, Repr

namespace Outcome

def ofList (findings : List Finding) : Outcome := { findings }

def ofOption (finding : Option Finding) : Outcome := { findings := finding.toList }

def ofExcept : Except CheckFault (List Finding) → Outcome
  | .ok findings => { findings }
  | .error fault => { fault := some fault }

def ofFault (fault : CheckFault) : Outcome := { fault := some fault }

def append (a b : Outcome) : Outcome :=
  match a.fault with
  | some _ => a
  | none => { findings := a.findings ++ b.findings, fault := b.fault }

instance : Append Outcome := ⟨append⟩

def concat : List Outcome → Outcome
  | [] => {}
  | o :: os => o ++ concat os

end Outcome

/-- What a docstring stands for. It is read as a source text of its own. -/
def Docstring.value (d : Docstring) : Except CheckFault LiteralValue :=
  match Literal.ofText? d.text with
  | none => .error .malformedDocstring
  | some l =>
    if l.isFormatted then
      .error (if (Grammar.parse? d.text).isSome then .formattedDocstring else .malformedDocstring)
    else if Grammar.isString d.text then
      match l.value with
      | .ok v => .ok v
      | .error _ => .error .malformedDocstring
    else .error .malformedDocstring

def Docstring.content (d : Docstring) : Except CheckFault Text := do
  match ← d.value with
  | .text t => return t
  | .bytes _ => throw .byteDocstring

def Docstring.judged (f : Text → List Finding) (d : Docstring) : Except CheckFault (List Finding) :=
  d.content.map f

end DocLint
