import DocLint.Text.Quoted

/-!
Templates: text with numbered places for parameters between braces.
-/

set_option autoImplicit false

namespace DocLint

inductive Parameter where
  | text (t : Text)
  | number (n : Int)
  deriving DecidableEq, Repr

namespace Parameter

def plain : Parameter → Text
  | .text t => t
  | .number n => Text.ofInt n

def quoted : Parameter → Text
  | .text t => t.quoted
  | .number n => Text.ofInt n

end Parameter

inductive TemplateFault where
  | noParameter
  | unknownName
  | malformed
  deriving DecidableEq, Repr

namespace Template

def openBrace : Char := Char.ofNat 123

def closeBrace : Char := Char.ofNat 125

def index? (field : Text) (counted : Nat) : Except TemplateFault Nat :=
  if field.isEmpty then .ok counted
  else if field.all Text.isAsciiDigit then
    .ok (field.foldl (fun n c => 10 * n + (c.toNat - '0'.toNat)) 0)
  else .error .unknownName

def place (parameters : List Parameter) (counted : Nat) (inside : Text) :
    Except TemplateFault Text :=
  let (field, conversion) := Text.cut "!" inside
  let isConverted := inside.contains '!'
  match index? field counted with
  | .error e => .error e
  | .ok i =>
    match parameters[i]? with
    | none => .error .noParameter
    | some p =>
      if !isConverted then .ok p.plain
      else if conversion = "r" then .ok p.quoted
      else if conversion = "s" then .ok p.plain
      else .error .malformed

/-- The text of a template from a place on; `counted` places without a number came before, and
`inside` is the place under way, reversed. -/
def fill (parameters : List Parameter) : Option Text → Nat → Text → Except TemplateFault Text
  | none, _, [] => .ok []
  | some _, _, [] => .error .malformed
  | some inside, counted, c :: cs =>
    if c = closeBrace then do
      let field := inside.reverse
      let t ← place parameters counted field
      let rest ← fill parameters none (if field.takeWhile (· ≠ '!') = [] then counted + 1 else counted) cs
      return t ++ rest
    else fill parameters (some (c :: inside)) counted cs
  | none, _, [c] => if c = openBrace ∨ c = closeBrace then .error .malformed else .ok [c]
  | none, counted, c :: d :: cs =>
    if c = openBrace then
      if d = openBrace then do return openBrace :: (← fill parameters none counted cs)
      else fill parameters (some []) counted (d :: cs)
    else if c = closeBrace then
      if d = closeBrace then do return closeBrace :: (← fill parameters none counted cs)
      else .error .malformed
    else do return c :: (← fill parameters none counted (d :: cs))

def render (template : Text) (parameters : List Parameter) : Except TemplateFault Text :=
  fill parameters none 0 template

end Template

end DocLint
