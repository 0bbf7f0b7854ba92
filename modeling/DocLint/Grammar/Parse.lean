import DocLint.Grammar.Statement

/-!
The grammar as a whole: source text to statements, or nothing if the text is not well formed.
-/

set_option autoImplicit false

namespace DocLint.Grammar

variable [Resources]

/-- An expression inside a formatted string: it is read as if it stood in parentheses. -/
def Rules.embeddedRule (g : Rules) (t : Text) : Option Expr := do
  let ts ← terminals? ('(' :: t ++ [')'])
  let (e, _) ← g.starExpressions ts
  return e

def Rules.atDepth : Nat → Rules
  | 0 =>
    { expression := failure, inversion := failure, factor := failure, primary := failure,
      embedded := fun _ => none, pattern := failure, block := failure }
  | depth + 1 =>
    let g := Rules.atDepth depth
    { expression := g.expressionRule, inversion := g.inversionRule, factor := g.factorRule,
      primary := g.primaryRule, embedded := g.embeddedRule, pattern := g.patternRule,
      block := g.blockRule }

def parse? (source : Text) : Option Program := do
  let ts ← terminals? source
  let g := Rules.atDepth (source.length + 2)
  let (statements, rest) ← (Rule.many g.statement ts)
  match rest with
  | [t] => if t.kind = .endMarker then some statements.flatten else none
  | _ => none

end DocLint.Grammar
