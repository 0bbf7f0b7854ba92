import DocLint.Grammar.PatternRule

/-!
Rules for statements and blocks of statements.
-/

set_option autoImplicit false

namespace DocLint.Grammar.Rules

variable [Resources]

open Grammar.Rule

variable (g : Rules)

def augmentOperators : List Text :=
  ["+=", "-=", "*=", "@=", "/=", "%=", "&=", "|=", "^=", "<<=", ">>=", "**=", "//="]

def assignment : Nat → List Expr → Expr → Rule Stmt
  | 0, _, _ => failure
  | fuel + 1, targets, e => do
    if ← acceptsOp "=" then
      require e.isTarget
      let value ← g.assignedValue
      assignment fuel (targets ++ [e]) value
    else if targets.isEmpty then return .expression e
    else return .assign targets e

def expressionStatement : Rule Stmt := do
  let isName := (← seesKind .name) && (← seesOpSecond ":")
  let first ← g.assignedValue
  if ← seesOp ":" then
    require first.isPlace
    op ":"
    let hint ← g.expressionRule
    let value ← if ← acceptsOp "=" then pure [← g.assignedValue] else pure []
    return .annotate first isName hint value
  else
    match ← option (oneOf augmentOperators) with
    | [] =>
      let fuel := (← get).length + 1
      g.assignment fuel [] first
    | _ =>
      require first.isPlace
      return .augment first (← g.assignedValue)

def dottedNames : Rule (List Text) := separated name (op ".")

def importedModule : Rule Text := do
  let path ← dottedNames
  if ← acceptsKeyword "as" then name else return path.headD []

def importedName : Rule (Text × Text) := do
  let id ← name
  if ← acceptsKeyword "as" then return (id, ← name) else return (id, id)

def importFrom : Rule Stmt := do
  keyword "from"
  let dots ← many (oneOf [".", "..."])
  let source ← if ← seesKeyword "import" then
      require (!dots.isEmpty)
      pure none
    else pure (some (Text.join "." (← dottedNames)))
  keyword "import"
  if ← acceptsOp "*" then return .importsFrom source [] [] true
  else if ← acceptsOp "(" then
    let (names, _) ← commaList importedName
    op ")"
    return .importsFrom source (names.map (·.1)) (names.map (·.2)) false
  else
    let names ← separated importedName (op ",")
    require (!(← seesOp ","))
    return .importsFrom source (names.map (·.1)) (names.map (·.2)) false

def simpleStatement : Rule Stmt := do
  if ← acceptsKeyword "pass" then return .pass
  else if ← acceptsKeyword "break" then return .breaks
  else if ← acceptsKeyword "continue" then return .continues
  else if ← acceptsKeyword "return" then return .returns (← option g.starExpressions)
  else if ← acceptsKeyword "raise" then
    match ← option g.expressionRule with
    | [] => return .raises []
    | es =>
      if ← acceptsKeyword "from" then return .raises (es ++ [← g.expressionRule])
      else return .raises es
  else if ← acceptsKeyword "global" then return .globals (← separated name (op ","))
  else if ← acceptsKeyword "nonlocal" then return .nonlocals (← separated name (op ","))
  else if ← acceptsKeyword "del" then
    let (targets, _) ← commaList g.primaryRule
    require (areDeletable targets)
    require ((← seesOp ";") || (← seesKind .newline))
    return .deletes targets
  else if ← acceptsKeyword "assert" then
    let test ← g.expressionRule
    if ← acceptsOp "," then return .asserts [test, ← g.expressionRule] else return .asserts [test]
  else if ← acceptsKeyword "import" then return .imports (← separated importedModule (op ","))
  else if ← seesKeyword "from" then importFrom
  else g.expressionStatement

def simpleStatements : Rule Program := do
  let placed : Rule (Nat × Stmt) := do
    let line := ((← get).head?.map (·.line)).getD 0
    return (line, ← g.simpleStatement)
  let statements ← separated placed (op ";")
  let _ ← acceptsOp ";"
  let _ ← kind .newline
  return statements

def functionDef (isAsync : Bool) (decorators : List Expr) : Rule Stmt := do
  keyword "def"
  let id ← name
  op "("
  let (parameters, defaults) ← g.parameters true ")"
  op ")"
  let result ← if ← acceptsOp "->" then pure [← g.expressionRule] else pure []
  op ":"
  let body ← g.block
  return .function isAsync id decorators parameters defaults result body

def classDefinition (decorators : List Expr) : Rule Stmt := do
  keyword "class"
  let id ← name
  let (bases, keywords) ← if ← seesOp "(" then g.arguments else pure ([], [])
  op ":"
  let body ← g.block
  return .classDef id decorators bases keywords body

def elseBlock : Rule (List Stmt) := do
  if ← acceptsKeyword "else" then
    op ":"
    g.block
  else return []

def elifBlocks : Rule (List Stmt) := do
  let parts ← many (do
    keyword "elif"
    let test ← g.namedExpression
    op ":"
    return (test, ← g.block))
  let last ← g.elseBlock
  return parts.foldr (fun (test, body) orElse => [.branch test body orElse]) last

def forStatement (isAsync : Bool) : Rule Stmt := do
  keyword "for"
  let target ← g.loopTarget
  keyword "in"
  let source ← g.starExpressions
  op ":"
  let body ← g.block
  return .forLoop isAsync target source body (← g.elseBlock)

def withItem : Rule (Expr × List Expr) := do
  let context ← g.expressionRule
  if ← acceptsKeyword "as" then
    let target ← if ← acceptsOp "*" then pure (.starred (← g.primaryRule)) else g.primaryRule
    require target.isTarget
    require ((← seesOp ",") || (← seesOp ")") || (← seesOp ":"))
    return (context, [target])
  else return (context, [])

def withStatement (isAsync : Bool) : Rule Stmt := do
  keyword "with"
  let bracketed : Rule (List (Expr × List Expr)) := do
    op "("
    let (items, _) ← commaList g.withItem
    op ")"
    op ":"
    return items
  let plain : Rule (List (Expr × List Expr)) := do
    let items ← separated g.withItem (op ",")
    op ":"
    return items
  let items ← bracketed <|> plain
  let body ← g.block
  return .withBlock isAsync (items.map (·.1)) (items.flatMap (·.2)) body

def handler (isGroup : Bool) : Rule Handler := do
  keyword "except"
  if isGroup then op "*"
  if !isGroup && (← seesOp ":") then
    op ":"
    return .mk [] none (← g.block)
  else
    let exception ← g.expressionRule
    let id ← if ← acceptsKeyword "as" then pure (some (← name)) else pure none
    op ":"
    return .mk [exception] id (← g.block)

def tryStatement : Rule Stmt := do
  keyword "try"
  op ":"
  let body ← g.block
  let isGroup := (← seesKeyword "except") && (← seesOpSecond "*")
  let handlers ← many (g.handler isGroup)
  let orElse ← if handlers.isEmpty then pure [] else g.elseBlock
  if ← acceptsKeyword "finally" then
    op ":"
    return .tryBlock body isGroup handlers orElse (← g.block)
  else
    require (!handlers.isEmpty)
    return .tryBlock body isGroup handlers orElse []

def caseBlock : Rule Case := do
  softKeyword "case"
  let p ← g.casePattern
  let guard ← if ← acceptsKeyword "if" then pure [← g.namedExpression] else pure []
  op ":"
  return .mk p guard (← g.block)

def matchStatement : Rule Stmt := do
  softKeyword "match"
  let subject ← match ← commaList g.starNamedExpression with
    | ([.starred _], false) => failure
    | ([e], false) => pure e
    | (es, _) => pure (.tuple es)
  op ":"
  let _ ← kind .newline
  let _ ← kind .indent
  let cases ← many1 g.caseBlock
  let _ ← kind .dedent
  return .matchBlock subject cases

def decorated (decorators : List Expr) : Rule Stmt := do
  if ← seesKeyword "class" then g.classDefinition decorators
  else
    let isAsync ← acceptsKeyword "async"
    g.functionDef isAsync decorators

def asyncStatement : Rule Stmt := do
  keyword "async"
  if ← seesKeyword "with" then g.withStatement true
  else if ← seesKeyword "for" then g.forStatement true
  else g.functionDef true []

def compoundStatement : Rule Stmt := do
  if ← seesKeyword "def" then g.functionDef false []
  else if ← seesOp "@" then
    let decorators ← many1 (do
      op "@"
      let e ← g.namedExpression
      let _ ← kind .newline
      return e)
    g.decorated decorators
  else if ← acceptsKeyword "if" then
    let test ← g.namedExpression
    op ":"
    let body ← g.block
    return .branch test body (← g.elifBlocks)
  else if ← seesKeyword "class" then g.classDefinition []
  else if ← seesKeyword "async" then g.asyncStatement
  else if ← seesKeyword "with" then g.withStatement false
  else if ← seesKeyword "for" then g.forStatement false
  else if ← seesKeyword "try" then g.tryStatement
  else if ← acceptsKeyword "while" then
    let test ← g.namedExpression
    op ":"
    let body ← g.block
    return .loop test body (← g.elseBlock)
  else g.matchStatement

def statement : Rule Program := do
  let line := ((← get).head?.map (·.line)).getD 0
  (do return [(line, ← g.compoundStatement)]) <|> g.simpleStatements

def statements : Rule Program := do return (← many1 g.statement).flatten

def blockRule : Rule (List Stmt) := do
  if ← seesKind .newline then
    let _ ← kind .newline
    let _ ← kind .indent
    let body ← g.statements
    let _ ← kind .dedent
    return body.map (·.2)
  else return (← g.simpleStatements).map (·.2)

end DocLint.Grammar.Rules
