import DocLint.Literal
import DocLint.Grammar.Terminal

/-!
Formatted strings: the expressions that stand between braces, as source text, or nothing if the
string is malformed. Braces are doubled to stand for themselves, and the specification behind a
colon may hold expressions again, but not deeper.
-/

set_option autoImplicit false

namespace DocLint.Grammar.Formatted

variable [Resources]

def openBrace : Char := Char.ofNat 123

def closeBrace : Char := Char.ofNat 125

def isBrace (c : Char) : Bool := c == openBrace || c == closeBrace

inductive LiteralEnd where
  | doubled
  | boundary

/-- The literal part up to a brace, what ends it, and the rest. `acc` is the part so far,
reversed. A doubled brace counts as one at the outer level only, where a lone closing brace is
refused. -/
def literalPart (outer raw : Bool) (acc : Text) : Nat → Text → Option (Text × LiteralEnd × Text)
  | 0, _ => none
  | _ + 1, [] => some (acc.reverse, .boundary, [])
  | fuel + 1, c :: cs =>
    let (escaped, ch, rest) : Text × Char × Text :=
      match (if c = '\\' ∧ !raw then cs else []) with
      | d :: ds => ([c], d, ds)
      | [] => ([], c, cs)
    let acc := escaped ++ acc
    if !escaped.isEmpty ∧ ch = 'N' then
      match rest with
      | b :: inside =>
        if b = openBrace then
          let name := inside.takeWhile (· ≠ closeBrace)
          let taken := (inside.dropWhile (· ≠ closeBrace)).take 1
          literalPart outer raw (taken ++ name.reverse ++ b :: ch :: acc) fuel
            ((inside.dropWhile (· ≠ closeBrace)).drop 1)
        else literalPart outer raw (b :: ch :: acc) fuel inside
      | [] => literalPart outer raw (ch :: acc) fuel []
    else if isBrace ch then
      if outer then
        match rest with
        | d :: ds =>
          if d = ch then some ((ch :: acc).reverse, .doubled, ds)
          else if ch = closeBrace then none
          else some (acc.reverse, .boundary, ch :: rest)
        | [] => if ch = closeBrace then none else some (acc.reverse, .boundary, [ch])
      else some (acc.reverse, .boundary, ch :: rest)
    else literalPart outer raw (ch :: acc) fuel rest

abbrev Quote := Option (Char × Bool)

/-- The expression up to the character that ends it, and the rest from that character on. The
first `skip` characters belong to the expression whatever they are; `acc` is the expression so far,
reversed. -/
def expressionPart (quote : Quote) (brackets acc : Text) : Nat → Text → Option (Text × Text)
  | _, [] => none
  | skip + 1, c :: cs => expressionPart quote brackets (c :: acc) skip cs
  | 0, c :: cs =>
    let tripled := cs.take 2 == [c, c]
    if c = '\\' then none
    else
      match quote with
      | some (q, triple) =>
        if c = q ∧ !triple then expressionPart none brackets (c :: acc) 0 cs
        else if c = q ∧ tripled then expressionPart none brackets (c :: acc) 2 cs
        else expressionPart quote brackets (c :: acc) 0 cs
      | none =>
        if Lexeme.isQuote c then
          if tripled then expressionPart (some (c, true)) brackets (c :: acc) 2 cs
          else expressionPart (some (c, false)) brackets (c :: acc) 0 cs
        else if "([\x7b".toList.contains c then
          if brackets.length ≥ maxBrackets then none
          else expressionPart none (c :: brackets) (c :: acc) 0 cs
        else if c = '#' then none
        else if brackets.isEmpty ∧ "!:=><\x7d".toList.contains c then
          if cs.head? = some '=' ∧ c ≠ ':' ∧ c ≠ closeBrace then
            expressionPart none brackets (c :: acc) 1 cs
          else if c = '>' ∨ c = '<' then expressionPart none brackets (c :: acc) 0 cs
          else some (acc.reverse, c :: cs)
        else if ")]\x7d".toList.contains c then
          if brackets.head?.any (closes · c) then
            expressionPart none (brackets.drop 1) (c :: acc) 0 cs
          else none
        else expressionPart none brackets (c :: acc) 0 cs

def isInnerSpace (c : Char) : Bool := c == ' ' || c == '\t' || c == '\n' || c == Char.ofNat 12

def afterEquals (t : Text) : Option Text :=
  match t with
  | '=' :: rest =>
    match rest.dropWhile fun c => isInnerSpace c || c == '\r' || c == Char.ofNat 11 with
    | [] => none
    | rest => some rest
  | _ => some t

def afterConversion (t : Text) : Option Text :=
  match t with
  | '!' :: c :: rest => if c = 's' ∨ c = 'r' ∨ c = 'a' then some rest else none
  | ['!'] => none
  | _ => some t

/-- The expressions of a string at a level of nesting, in order, and the rest: nothing at the
outer level, a closing brace inside. -/
def parts (raw : Bool) : Nat → Nat → Text → Option (List Text × Text)
  | 0, _, _ => none
  | fuel + 1, level, t => do
    let (literal, ending, rest) ← literalPart (level = 0) raw [] (t.length + 1) t
    match Literal.decodeText raw literal with
    | .error _ => none
    | .ok _ =>
      match ending, rest with
      | .doubled, _ => parts raw fuel level rest
      | .boundary, [] => some ([], [])
      | .boundary, c :: inside =>
        if c = closeBrace then some ([], rest)
        else if level ≥ 2 then none
        else do
          let (expression, rest) ← expressionPart none [] [] 0 inside
          if expression.all isInnerSpace then none
          else do
            let rest ← afterEquals rest
            let rest ← afterConversion rest
            let (inner, rest) ← match rest with
              | ':' :: specification => parts raw fuel (level + 1) specification
              | _ => some ([], rest)
            match rest with
            | d :: rest =>
              if d = closeBrace then do
                let (more, rest) ← parts raw fuel level rest
                some (expression :: inner ++ more, rest)
              else none
            | [] => none

def expressions? (raw : Bool) (body : Text) : Option (List Text) :=
  match parts raw (body.length + 1) 0 body with
  | some (es, []) => some es
  | _ => none

end DocLint.Grammar.Formatted
