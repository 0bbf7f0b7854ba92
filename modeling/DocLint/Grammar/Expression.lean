import DocLint.Grammar.Formatted
import DocLint.Grammar.Rule
import DocLint.Grammar.Target

/-!
Rules for expressions. Where a rule leads back to itself it goes through a record of rules, which
is tied together elsewhere; all binary operators share one rule, since their binding strength does
not matter here.
-/

set_option autoImplicit false

namespace DocLint.Grammar

variable [Resources]

structure Rules where
  expression : Rule Expr
  inversion : Rule Expr
  factor : Rule Expr
  primary : Rule Expr
  embedded : Text → Option Expr
  pattern : Rule Pattern
  block : Rule (List Stmt)

namespace Rules

open Grammar.Rule

variable (g : Rules)

def binaryOperators : List Text :=
  ["|", "^", "&", "<<", ">>", "+", "-", "*", "/", "//", "%", "@"]

def operationOf : List Expr → Expr
  | [e] => e
  | es => .operation es

def operands : Rule Expr := do
  return operationOf (← separated g.factor (oneOf binaryOperators))

def comparator : Rule Unit := do
  if ← acceptsKeyword "not" then keyword "in"
  else if ← acceptsKeyword "in" then pure ()
  else if ← acceptsKeyword "is" then
    let _ ← acceptsKeyword "not"
    pure ()
  else
    let _ ← oneOf ["==", "!=", "<=", "<", ">=", ">"]
    pure ()

def comparison : Rule Expr := do
  return operationOf (← separated g.operands comparator)

def inversionRule : Rule Expr := do
  if ← acceptsKeyword "not" then
    let e ← g.inversion
    return .operation [e]
  else g.comparison

def disjunction : Rule Expr := do
  let conjunction := separated g.inversionRule (keyword "and")
  return operationOf ((← separated conjunction (keyword "or")).map operationOf)

structure ParameterState where
  parameters : List Parameter := []
  defaults : List Expr := []
  sawDefault : Bool := false
  sawSlash : Bool := false
  sawStar : Bool := false
  bareStar : Bool := false
  closed : Bool := false

/-- An annotation, if annotations are allowed here; behind a star it may be starred itself. -/
def hint (allowed starred : Bool) : Rule (List Expr) := do
  if allowed then
    if ← acceptsOp ":" then
      if starred && (← seesOp "*") then
        op "*"
        return [.starred (← g.operands)]
      else return [← g.expression]
    else return []
  else return []

def markPositional (ps : List Parameter) : List Parameter :=
  ps.map fun p => .mk .positionalOnly p.name p.hint

def parameterPart (hints : Bool) (s : ParameterState) : Rule ParameterState := do
  require (!s.closed)
  if ← acceptsOp "/" then
    require (!s.sawSlash && !s.sawStar && !s.parameters.isEmpty)
    return { s with sawSlash := true, parameters := markPositional s.parameters }
  else if ← acceptsOp "**" then
    require (!s.bareStar)
    let id ← name
    let h ← g.hint hints false
    return { s with parameters := s.parameters ++ [.mk .keywordRest id h], closed := true }
  else if ← acceptsOp "*" then
    require (!s.sawStar)
    if ← seesOp "," then return { s with sawStar := true, bareStar := true }
    else
      let id ← name
      let h ← g.hint hints true
      return { s with parameters := s.parameters ++ [.mk .rest id h], sawStar := true }
  else
    let id ← name
    let h ← g.hint hints false
    let role := if s.sawStar then .keywordOnly else .ordinary
    let parameters := s.parameters ++ [.mk role id h]
    if ← acceptsOp "=" then
      let e ← g.expression
      return { s with
        parameters
        defaults := s.defaults ++ [e]
        sawDefault := s.sawDefault || !s.sawStar
        bareStar := false }
    else
      require (s.sawStar || !s.sawDefault)
      return { s with parameters, bareStar := false }

def parameterParts (hints : Bool) (close : Text) : Nat → ParameterState → Rule ParameterState
  | 0, _ => failure
  | fuel + 1, s => do
    if ← seesOp close then return s
    else
      let s ← g.parameterPart hints s
      if ← acceptsOp "," then parameterParts hints close fuel s
      else
        require (← seesOp close)
        return s

def parameters (hints : Bool) (close : Text) : Rule (List Parameter × List Expr) := do
  let fuel := (← get).length + 1
  let s ← g.parameterParts hints close fuel {}
  require (!s.bareStar)
  return (s.parameters, s.defaults)

def expressionRule : Rule Expr := do
  if ← acceptsKeyword "lambda" then
    let (parameters, defaults) ← g.parameters false ":"
    op ":"
    let body ← g.expression
    return .lambda parameters defaults body
  else
    let e ← g.disjunction
    (do keyword "if"
        let test ← g.disjunction
        keyword "else"
        let other ← g.expression
        return .operation [e, test, other]) <|> pure e

def starExpression : Rule Expr := do
  if ← acceptsOp "*" then return .starred (← g.operands) else g.expressionRule

def starExpressions : Rule Expr := do
  match ← commaList g.starExpression with
  | ([e], false) => return e
  | (es, _) => return .tuple es

def seesBinding : Rule Bool := do return (← seesKind .name) && (← seesOpSecond ":=")

def namedExpression : Rule Expr := do
  if ← seesBinding then
    let id ← name
    op ":="
    return .named id (← g.expressionRule)
  else
    let e ← g.expressionRule
    require (!(← seesOp ":="))
    return e

def starNamedExpression : Rule Expr := do
  if ← acceptsOp "*" then return .starred (← g.operands) else g.namedExpression

def yieldExpression : Rule Expr := do
  keyword "yield"
  if ← acceptsKeyword "from" then return .yieldFrom (← g.expressionRule)
  else return .yield (← option g.starExpressions)

def assignedValue : Rule Expr := do
  if ← seesKeyword "yield" then g.yieldExpression else g.starExpressions

def maxDigits : Nat := 4300

def isReadable (t : Text) : Bool :=
  !(t.all fun c => Text.isAsciiDigit c || c == '_') ||
    (t.filter Text.isAsciiDigit).length ≤ maxDigits

/-- A string literal as it enters a sequence of such: what it is, and its expressions. -/
def literalParts (t : Terminal) : Option (Literal × List Expr) := do
  let literal ← Literal.ofText? t.text
  if literal.isFormatted then
    let texts ← Formatted.expressions? literal.isRaw literal.body
    return (literal, ← texts.mapM g.embedded)
  else return (literal, [])

def strings : Rule Expr := do
  let ts ← many1 (kind .string)
  let parts ← (ts.mapM g.literalParts : Option _)
  let literals := parts.map (·.1)
  if literals.all (·.isBytes) then return .bytes
  else
    require (!literals.any (·.isBytes))
    if literals.any (·.isFormatted) then return .formatted (parts.flatMap (·.2)) else return .text

def loopTarget : Rule Expr := do
  let item : Rule Expr := do
    if ← acceptsOp "*" then return .starred (← g.primary) else g.primary
  let target ← match ← commaList item with
    | ([e], false) => pure e
    | (es, _) => pure (.tuple es)
  require target.isTarget
  return target

def clause : Rule Clause := do
  let isAsync ← acceptsKeyword "async"
  keyword "for"
  let target ← g.loopTarget
  keyword "in"
  let source ← g.disjunction
  let conditions ← many (do keyword "if"; g.disjunction)
  return .mk isAsync target source conditions

def seesClause : Rule Bool := do return (← seesKeyword "for") || (← seesKeyword "async")

structure ArgumentState where
  arguments : List Expr := []
  keywords : List Text := []
  sawKeyword : Bool := false
  sawDoubleStar : Bool := false

def argument (s : ArgumentState) : Rule ArgumentState := do
  if ← acceptsOp "**" then
    let e ← g.expressionRule
    return { s with arguments := s.arguments ++ [e], sawDoubleStar := true }
  else if ← acceptsOp "*" then
    require (!s.sawDoubleStar)
    let e ← g.expressionRule
    return { s with arguments := s.arguments ++ [.starred e] }
  else if (← seesKind .name) && (← seesOpSecond "=") then
    let id ← name
    op "="
    let e ← g.expressionRule
    return { s with
      arguments := s.arguments ++ [e]
      keywords := s.keywords ++ [id]
      sawKeyword := true }
  else
    require (!s.sawKeyword && !s.sawDoubleStar)
    let e ← g.namedExpression
    require (!(← seesOp "="))
    return { s with arguments := s.arguments ++ [e] }

def argumentsFrom : Nat → ArgumentState → Rule ArgumentState
  | 0, _ => failure
  | fuel + 1, s => do
    if ← seesOp ")" then return s
    else
      let s ← g.argument s
      if ← acceptsOp "," then argumentsFrom fuel s
      else
        require (← seesOp ")")
        return s

def arguments : Rule (List Expr × List Text) := do
  op "("
  let fuel := (← get).length + 1
  let s ← g.argumentsFrom fuel {}
  op ")"
  return (s.arguments, s.keywords)

def callArguments : Rule (List Expr × List Text) := do
  op "("
  if ← acceptsOp ")" then return ([], [])
  else
    let isPlain := !(← seesOp "*")
    let s ← g.argument {}
    match s with
    | { arguments := [e], keywords := [], sawDoubleStar := false, .. } =>
      if isPlain && (← seesClause) then
        let clauses ← many1 g.clause
        op ")"
        return ([.comprehension .generator [e] clauses], [])
      else pure ()
    | _ => pure ()
    let s ← if ← acceptsOp "," then
        let fuel := (← get).length + 1
        g.argumentsFrom fuel s
      else pure s
    op ")"
    return (s.arguments, s.keywords)

def slice : Rule Expr := do
  let isNamed ← seesBinding
  let first ← if ← seesOp ":" then pure [] else pure [← g.namedExpression]
  if !isNamed && (← seesOp ":") then
    op ":"
    let second ← option g.expressionRule
    let third ← if ← acceptsOp ":" then option g.expressionRule else pure []
    return .operation (first ++ second ++ third)
  else return operationOf first

def sliceItem : Rule Expr := do
  if ← acceptsOp "*" then return .starred (← g.expressionRule) else g.slice

def slices : Rule Expr := do
  match ← commaList g.sliceItem with
  | ([.starred e], _) => return .tuple [.starred e]
  | ([e], false) => return e
  | (es, _) => return .tuple es

def suffixes : Nat → Expr → Rule Expr
  | 0, e => pure e
  | fuel + 1, e => do
    if ← acceptsOp "." then
      let id ← name
      suffixes fuel (.attribute e id)
    else if ← seesOp "(" then
      let (arguments, keywords) ← g.callArguments
      suffixes fuel (.call e arguments keywords)
    else if ← acceptsOp "[" then
      let index ← g.slices
      op "]"
      suffixes fuel (.subscript e index)
    else return e

def parenthesized : Rule Expr := do
  op "("
  if ← acceptsOp ")" then return .tuple []
  else if ← seesKeyword "yield" then
    let e ← g.yieldExpression
    op ")"
    return e
  else
    let first ← g.starNamedExpression
    let isStarred := match first with | .starred _ => true | _ => false
    if ← acceptsOp "," then
      let (more, _) ← commaList g.starNamedExpression <|> pure ([], false)
      op ")"
      return .tuple (first :: more)
    else
      require (!isStarred)
      if ← acceptsOp ")" then return first
      else
        let clauses ← many1 g.clause
        op ")"
        return .comprehension .generator [first] clauses

def bracketed : Rule Expr := do
  op "["
  if ← acceptsOp "]" then return .list []
  else
    let first ← g.starNamedExpression
    let isStarred := match first with | .starred _ => true | _ => false
    if ← acceptsOp "," then
      let (more, _) ← commaList g.starNamedExpression <|> pure ([], false)
      op "]"
      return .list (first :: more)
    else if ← acceptsOp "]" then return .list [first]
    else
      require (!isStarred)
      let clauses ← many1 g.clause
      op "]"
      return .comprehension .list [first] clauses

def entry : Rule (List Expr) := do
  if ← acceptsOp "**" then return [← g.operands]
  else
    let key ← g.expressionRule
    op ":"
    let value ← g.expressionRule
    return [key, value]

def entriesAfter (first : List Expr) : Rule Expr := do
  if ← acceptsOp "," then
    let (entries, _) ← commaList g.entry <|> pure ([], false)
    op "\x7d"
    return .dictionary (first ++ entries.flatten)
  else
    op "\x7d"
    return .dictionary first

def itemsAfter (first : Expr) : Rule Expr := do
  if ← acceptsOp "," then
    let (items, _) ← commaList g.starNamedExpression <|> pure ([], false)
    op "\x7d"
    return .set (first :: items)
  else
    op "\x7d"
    return .set [first]

def braced : Rule Expr := do
  op "\x7b"
  if ← acceptsOp "\x7d" then return .dictionary []
  else if ← seesOp "**" then g.entriesAfter (← g.entry)
  else if ← seesOp "*" then g.itemsAfter (← g.starNamedExpression)
  else
    let isNamed ← seesBinding
    let first ← g.namedExpression
    if !isNamed && (← seesOp ":") then
      op ":"
      let value ← g.expressionRule
      if ← seesClause then
        let clauses ← many1 g.clause
        op "\x7d"
        return .comprehension .dictionary [first, value] clauses
      else g.entriesAfter [first, value]
    else if ← seesClause then
      let clauses ← many1 g.clause
      op "\x7d"
      return .comprehension .set [first] clauses
    else g.itemsAfter first

def atom : Rule Expr := fun ts =>
  match ts with
  | [] => none
  | t :: rest =>
    match t.kind with
    | .name => some (.name (Text.normalizeIdentifier t.text), rest)
    | .number => if isReadable t.text then some (.constant, rest) else none
    | .string => g.strings ts
    | .keyword =>
      if ["True", "False", "None"].contains (String.ofList t.text) then some (.constant, rest)
      else none
    | .op =>
      if t.text = "(" then g.parenthesized ts
      else if t.text = "[" then g.bracketed ts
      else if t.text = "\x7b" then g.braced ts
      else if t.text = "..." then some (.constant, rest)
      else none
    | _ => none

def primaryRule : Rule Expr := do
  let e ← g.atom
  let length := (← get).length
  g.suffixes length e

def power : Rule Expr := do
  let base ← if ← acceptsKeyword "await" then pure (.await (← g.primaryRule)) else g.primaryRule
  if ← acceptsOp "**" then return .operation [base, ← g.factor] else return base

def factorRule : Rule Expr := do
  match ← option (oneOf ["+", "-", "~"]) with
  | [] => g.power
  | _ => return .operation [← g.factor]

end Rules

end DocLint.Grammar
