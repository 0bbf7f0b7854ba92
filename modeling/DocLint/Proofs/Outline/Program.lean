import DocLint.Proofs.Outline.Runs

/-!
Programs as trees of statements, the tokens in which they are written, and the definitions that
they hold. Compound statements leave no trace in the definitions: what stands in their blocks
belongs to the definition around them.
-/

set_option autoImplicit false

namespace DocLint

def TokenKind.isInner : TokenKind → Bool
  | .newline | .indent | .dedent | .endMarker => false
  | _ => true

namespace Outline

def guideWords : List Text := Text.literals ["def", "class", "from", "import", "__all__"]

def guideMarks : List Text := openingBrackets ++ closingBrackets ++ Text.literals [",", "="]

/-- Only names are spelled like words, and only operators like marks. Every token that is cut out
of a text is spelled like this. -/
def isWellSpelled (t : Token) : Bool :=
  (!guideWords.contains t.value || t.kind == .name) &&
    (!guideMarks.contains t.value || t.value.isEmpty || t.kind == .op)

def isCode (t : Token) : Bool := t.kind.isInner && !t.value.isEmpty && isWellSpelled t

structure TokenOf (kind : TokenKind) where
  token : Token
  isKind : token.kind = kind
  spelled : isWellSpelled token = true

structure Operator (text : Text) where
  token : Token
  isOperator : token.is .op text = true

structure Blank where
  token : Token
  isBlank : token.kind.isLogicallyBlank = true
  spelled : isWellSpelled token = true

structure Code where
  first : Token
  rest : List Token
  code : (first :: rest).all isCode = true
  opens : (first.kind.isLogicallyBlank || first.is .op "@") = false
  plain : ((first :: rest).any fun t => t.is .name "def" || t.is .name "class") = false

def Code.tokens (c : Code) : List Token := c.first :: c.rest

def docstringOf (t : Token) : Option Docstring :=
  if t.kind = .string then some ⟨t.value, t.start.row, t.stop.row⟩ else none

structure Line extends Code where
  silent : ((first :: rest).any fun t => t.is .name "from" || t.is .name exportName) = false
  newline : TokenOf .newline

def Line.tokens (l : Line) : List Token := l.toCode.tokens ++ [l.newline.token]

structure Opening where
  remark : Option (TokenOf .comment)
  newline : TokenOf .newline
  blanks : List Blank
  indent : TokenOf .indent

def Opening.fillers (o : Opening) : List Token :=
  (o.remark.map (·.token)).toList ++ o.newline.token :: o.blanks.map (·.token)

def Opening.tokens (o : Opening) : List Token := o.fillers ++ [o.indent.token]

def skippedIn : List Token → Text
  | [] => []
  | t :: ts => if (skippedAt t).isEmpty then skippedIn ts else skippedAt t

structure Header extends Code where
  colon : Operator ":"

def Header.tokens (h : Header) : List Token := h.toCode.tokens ++ [h.colon.token]

structure DecoratorLine where
  mark : Operator "@"
  inside : List Token
  newline : TokenOf .newline
  gap : List (TokenOf .nl)
  plain : (inside.any fun t =>
    t.kind == .comment || t.kind == .newline || t.is .op "@" || opensDecorated t) = false

def DecoratorLine.behind (l : DecoratorLine) : List Token :=
  l.inside ++ l.newline.token :: l.gap.map (·.token)

def DecoratorLine.tokens (l : DecoratorLine) : List Token := l.mark.token :: l.behind

def plainText (ts : List Token) : Text :=
  (ts.filter fun t => !(t.is .op "(" || t.is .op ")" || t.kind == .nl)).flatMap (·.value)

/-- The name is what stands before the first parenthesis, and the arguments are the rest. -/
def DecoratorLine.decorator (l : DecoratorLine) : Decorator where
  name := plainText (l.inside.takeWhile fun t => !t.is .op "(")
  arguments := plainText (l.inside.dropWhile fun t => !t.is .op "(")

def isBalanced (depth : Nat) : List Token → Bool
  | [] => depth == 0
  | t :: ts =>
    if t.is .op "(" then isBalanced (depth + 1) ts
    else if t.is .op ")" then
      match depth with
      | 0 => false
      | d + 1 => isBalanced d ts
    else isBalanced depth ts

structure Signature where
  opening : Operator "("
  inside : List Token
  closing : Operator ")"
  result : List Token
  balanced : isBalanced 0 inside = true
  plain : (result.any fun t => t.is .op ":") = false

def Signature.tokens (s : Signature) : List Token :=
  s.opening.token :: s.inside ++ s.closing.token :: s.result

structure Head where
  decorators : List DecoratorLine
  async : Option (TokenOf .name)
  keyword : Token
  name : Token
  signature : Option Signature
  colon : Operator ":"
  isAsync : async.all (fun t => t.token.value == "async".toList) = true
  isKeyword : (keyword.is .name "def" || keyword.is .name "class") = true

theorem Head.not_async : (none : Option (TokenOf .name)).all (fun t => t.token.value == "async".toList) = true := rfl

def Head.core (h : Head) : List Token :=
  h.keyword :: h.name :: (h.signature.map Signature.tokens).getD [] ++ [h.colon.token]

def Head.tokens (h : Head) : List Token :=
  h.decorators.flatMap DecoratorLine.tokens ++ ((h.async.map (·.token)).toList ++ h.core)

def Head.kindIn (h : Head) (r : Region) : DefinitionKind := r.nested (h.keyword.value = "class")

structure LineBody where
  first : Token
  rest : List Token
  newline : TokenOf .newline
  opens : isFiller first = false
  inside : (rest.any fun t => t.kind == .newline) = false

def LineBody.tokens (b : LineBody) : List Token := b.first :: b.rest ++ [b.newline.token]

def LineBody.undocumented (b : LineBody) : List Token :=
  if b.first.kind = .string then b.rest ++ [b.newline.token] else b.tokens

inductive Block where
  | done
  | blank (b : Blank) (next : Block)
  | simple (l : Line) (next : Block)
  | compound (h : Header) (o : Opening) (body : Block) (stop : TokenOf .dedent) (next : Block)
  | definition (h : Head) (o : Opening) (body : Block) (stop : TokenOf .dedent) (next : Block)
  | oneLine (h : Head) (body : LineBody) (next : Block)

namespace Block

def tokens : Block → List Token
  | .done => []
  | .blank b next => b.token :: next.tokens
  | .simple l next => l.tokens ++ next.tokens
  | .compound h o body stop next =>
    h.tokens ++ (o.tokens ++ (body.tokens ++ stop.token :: next.tokens))
  | .definition h o body stop next =>
    h.tokens ++ (o.tokens ++ (body.tokens ++ stop.token :: next.tokens))
  | .oneLine h body next => h.tokens ++ (body.tokens ++ next.tokens)

def docstring : Block → Option Docstring
  | .blank _ next => next.docstring
  | .simple l _ => docstringOf l.first
  | .compound h _ _ _ _ => docstringOf h.first
  | _ => none

def remarks : Block → List Token
  | .blank b next => b.token :: next.remarks
  | _ => []

/-- The definitions of a block in a region, where the text goes on with the tokens `after`. -/
def definitions (region : Region) (after : List Token) : Block → List Definition
  | .done => []
  | .blank _ next => next.definitions region after
  | .simple _ next => next.definitions region after
  | .compound _ _ body stop next =>
    body.definitions region [stop.token] ++ next.definitions region after
  | .definition h o body stop next =>
    { kind := h.kindIn region
      name := h.name.value
      start := h.keyword.start.row
      stop := rowOf (next.tokens ++ after) - 1
      decorators := h.decorators.map DecoratorLine.decorator
      docstring := body.docstring
      skipped := skippedIn o.fillers
      children := body.definitions (.within (h.kindIn region)) [stop.token] } ::
      next.definitions region after
  | .oneLine h body next =>
    { kind := h.kindIn region
      name := h.name.value
      start := h.keyword.start.row
      stop := rowOf body.undocumented
      decorators := h.decorators.map DecoratorLine.decorator
      docstring := docstringOf body.first
      skipped := []
      children := [] } ::
      next.definitions region after

end Block

structure Program where
  statements : Block
  stop : TokenOf .endMarker

namespace Program

def tokens (p : Program) : List Token := p.statements.tokens ++ [p.stop.token]

def definitions (p : Program) : List Definition := p.statements.definitions .module [p.stop.token]

/-- The module of a program, with what is read off its lines besides the definitions. -/
def outline (p : Program) (name : Text) (source : List Text) (exports : Option Exports)
    (exportFault : Option ExportFault) (features : List Text) : Module where
  name := name
  source := source
  start := rowOf p.tokens
  stop := p.stop.token.start.row
  docstring := p.statements.docstring
  skipped := skippedIn p.statements.remarks
  children := p.definitions
  exports := exports
  exportFault := exportFault
  features := features

end Program

end Outline

end DocLint
