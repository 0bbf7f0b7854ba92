import DocLint.Grammar.Key

/-!
Trees of expressions, patterns and statements, as far as the rules on names, targets and control
flow look at them. Operators do not appear: only the order of the operands counts.
-/

set_option autoImplicit false

namespace DocLint.Grammar

inductive ParameterRole where
  | positionalOnly | ordinary | rest | keywordOnly | keywordRest
  deriving DecidableEq, Repr

inductive ComprehensionKind where
  | list | set | dictionary | generator
  deriving DecidableEq, Repr

mutual

inductive Expr where
  | name (id : Text)
  | constant
  | text
  | bytes
  | formatted (parts : List Expr)
  | attribute (value : Expr) (name : Text)
  | subscript (value : Expr) (index : Expr)
  | starred (value : Expr)
  | tuple (items : List Expr)
  | list (items : List Expr)
  | set (items : List Expr)
  | dictionary (items : List Expr)
  | operation (operands : List Expr)
  | call (function : Expr) (arguments : List Expr) (keywords : List Text)
  | named (target : Text) (value : Expr)
  | lambda (parameters : List Parameter) (defaults : List Expr) (body : Expr)
  | comprehension (kind : ComprehensionKind) (element : List Expr) (clauses : List Clause)
  | await (value : Expr)
  | yield (value : List Expr)
  | yieldFrom (value : Expr)

inductive Clause where
  | mk (isAsync : Bool) (target source : Expr) (conditions : List Expr)

inductive Parameter where
  | mk (role : ParameterRole) (name : Text) (hint : List Expr)

end

def Parameter.role : Parameter → ParameterRole
  | .mk role _ _ => role

def Parameter.name : Parameter → Text
  | .mk _ name _ => name

def Parameter.hint : Parameter → List Expr
  | .mk _ _ hint => hint

inductive Pattern where
  | wildcard
  | capture (name : Text)
  | value (e : Expr)
  | sequence (items : List Pattern)
  | star (name : Option Text)
  | mapping (keys : List Key) (items : List Pattern) (rest : Option Text)
  | object (head : Expr) (items : List Pattern) (keywords : List Text)
  | either (alternatives : List Pattern)
  | bind (inner : Pattern) (name : Text)

mutual

inductive Stmt where
  | expression (value : Expr)
  | assign (targets : List Expr) (value : Expr)
  | augment (target value : Expr)
  | annotate (target : Expr) (isName : Bool) (hint : Expr) (value : List Expr)
  | returns (value : List Expr)
  | deletes (targets : List Expr)
  | raises (parts : List Expr)
  | asserts (parts : List Expr)
  | globals (names : List Text)
  | nonlocals (names : List Text)
  | imports (bound : List Text)
  | importsFrom (source : Option Text) (names bound : List Text) (everything : Bool)
  | pass
  | breaks
  | continues
  | function (isAsync : Bool) (name : Text) (decorators : List Expr)
      (parameters : List Parameter) (defaults result : List Expr) (body : List Stmt)
  | classDef (name : Text) (decorators bases : List Expr) (keywords : List Text) (body : List Stmt)
  | branch (test : Expr) (body orElse : List Stmt)
  | loop (test : Expr) (body orElse : List Stmt)
  | forLoop (isAsync : Bool) (target source : Expr) (body orElse : List Stmt)
  | withBlock (isAsync : Bool) (contexts targets : List Expr) (body : List Stmt)
  | tryBlock (body : List Stmt) (isGroup : Bool) (handlers : List Handler) (orElse last : List Stmt)
  | matchBlock (subject : Expr) (cases : List Case)

inductive Handler where
  | mk (kind : List Expr) (name : Option Text) (body : List Stmt)

inductive Case where
  | mk (pattern : Pattern) (guard : List Expr) (body : List Stmt)

end

abbrev Program := List (Nat × Stmt)

end DocLint.Grammar
