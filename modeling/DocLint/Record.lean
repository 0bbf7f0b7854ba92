import DocLint.Definition
import DocLint.Token

/-!
Records as they are shown in messages: the fields of a definition, a decorator or a token, filled
in by position.
-/

set_option autoImplicit false

namespace DocLint

inductive Datum where
  | nothing
  | flag (b : Bool)
  | number (n : Int)
  | text (t : Text)
  | list (items : List Datum)
  deriving Repr, Inhabited

namespace Datum

mutual

def shown : Datum → Text
  | .nothing => "None"
  | .flag true => "True"
  | .flag false => "False"
  | .number n => Text.ofInt n
  | .text t => t.quoted
  | .list items => '[' :: shownItems items ++ [']']

def shownItems : List Datum → Text
  | [] => []
  | [d] => d.shown
  | d :: ds => d.shown ++ ", ".toList ++ shownItems ds

end

def number? : Datum → Option Int
  | .flag b => some b.toInt
  | .number n => some n
  | _ => none

mutual

def same : Datum → Datum → Bool
  | .nothing, .nothing => true
  | .text a, .text b => a == b
  | .list as, .list bs => sameItems as bs
  | a, b =>
    match a.number?, b.number? with
    | some m, some n => m == n
    | _, _ => false

def sameItems : List Datum → List Datum → Bool
  | [], [] => true
  | a :: as, b :: bs => a.same b && sameItems as bs
  | _, _ => false

end

end Datum

inductive RecordKind where
  | anyDefinition
  | definition (kind : DefinitionKind)
  | module
  | package
  | decorator
  | token
  deriving DecidableEq, Repr

namespace RecordKind

def all : List RecordKind :=
  [.anyDefinition, .module, .package, .decorator, .token] ++ DefinitionKind.all.map .definition

def label : RecordKind → Text
  | .anyDefinition => "Definition"
  | .definition k => k.label
  | .module => "Module"
  | .package => "Package"
  | .decorator => "Decorator"
  | .token => "Token"

def ofLabel? (label : Text) : Option RecordKind := all.find? (·.label == label)

def fields : RecordKind → List Text
  | .anyDefinition | .definition _ => Text.literals
    ["name", "_source", "start", "end", "decorators", "docstring", "children", "parent",
      "skipped_error_codes"]
  | .module | .package => Text.literals
    ["name", "_source", "start", "end", "decorators", "docstring", "children", "parent",
      "_dunder_all", "dunder_all_error", "future_imports", "skipped_error_codes"]
  | .decorator => Text.literals ["name", "arguments"]
  | .token => Text.literals ["kind", "value", "start", "end", "source"]

def fieldsShown (k : RecordKind) : Text :=
  let names := Text.join ", " (k.fields.map Text.quoted)
  match k with
  | .decorator | .token => '[' :: names ++ [']']
  | _ => '(' :: names ++ [')']

end RecordKind

structure Record where
  kind : RecordKind
  values : List Datum
  deriving Repr

inductive RecordFault where
  | arity (kind : RecordKind) (given : Nat)
  | notANumber
  | unknownTokenKind
  | parent
  deriving DecidableEq, Repr

namespace RecordFault

def message? : RecordFault → Option Text
  | .arity k given =>
    some ("got ".toList ++ Text.ofNat given ++ " arguments for ".toList ++
      Text.ofNat k.fields.length ++ " fields for ".toList ++ k.label ++ ": ".toList ++ k.fieldsShown)
  | _ => none

end RecordFault

namespace Record

def ofList (kind : RecordKind) (values : List Datum) : Except RecordFault Record :=
  if values.length ≠ kind.fields.length then .error (.arity kind values.length)
  else
    match kind, values with
    | .token, v :: vs =>
      match v.number? with
      | some n => .ok { kind, values := .number n :: vs }
      | none => .error .notANumber
    | _, _ => .ok { kind, values }

def field (r : Record) (name : Text) : Datum := ((r.kind.fields.zip r.values).lookup name).getD .nothing

def tokenKindShown (d : Datum) : Except RecordFault Text :=
  match TokenKind.all.find? fun k => d.number? == some (Int.ofNat k.ordinal) with
  | some k => .ok k.shown
  | none => .error .unknownTokenKind

def valueShown (r : Record) (name : Text) (d : Datum) : Except RecordFault Text :=
  if r.kind = .token ∧ name = "kind" then tokenKindShown d else .ok d.shown

def shown (r : Record) : Except RecordFault Text := do
  let parts ← (r.kind.fields.zip r.values).mapM fun (name, d) => do
    return name ++ "=".toList ++ (← r.valueShown name d)
  return r.kind.label ++ "(".toList ++ Text.join ", " parts ++ ")".toList

def plain : Datum → Text
  | .text t => t
  | d => d.shown

def isEmpty : Datum → Bool
  | .nothing | .flag false => true
  | .number n => n == 0
  | .text t => t.isEmpty
  | .list l => l.isEmpty
  | .flag true => false

def privateShown (r : Record) : Text :=
  let skipped := r.field "skipped_error_codes"
  "in private ".toList ++ r.kind.label.humanize ++ " \x60".toList ++ plain (r.field "name") ++
    "\x60".toList ++
    if isEmpty skipped then [] else " (skipping ".toList ++ plain skipped ++ ")".toList

/-- What messages call the record. Only the parent knows whether a definition is public, unless it is
private by itself. -/
def described (r : Record) : Except RecordFault Text :=
  match r.kind with
  | .module | .package => .ok "at module level"
  | .decorator => r.shown
  | .token => do
    let kind ← tokenKindShown (r.field "kind")
    return kind ++ " (".toList ++ plain (r.field "value") ++ ")".toList
  | .definition .nestedFunction => .ok r.privateShown
  | .definition .nestedClass =>
    match r.field "name" with
    | .text ('_' :: _) => .ok r.privateShown
    | _ => .error .parent
  | _ => .error .parent

def same (a b : Record) : Bool := a.kind == b.kind && Datum.sameItems a.values b.values

end Record

end DocLint
