import DocLint.Grammar.Tree

/-!
Where things may stand: results and yields inside functions, waiting inside asynchronous ones,
jumps inside loops, starred expressions inside displays, and names that nothing may be bound to.
-/

set_option autoImplicit false

namespace DocLint.Grammar

inductive ScopeKind where
  | module | classBody | function | asyncFunction | lambda | comprehension
  | hint
  deriving DecidableEq, Repr

structure Surroundings where
  scope : ScopeKind := .module
  inLoop : Bool := false
  /-- A handler of an exception group stands around, which no return may leave. -/
  inGroupHandler : Bool := false
  yieldsAsync : Bool := false
  inSource : Bool := false
  blocks : Nat := 0
  defersHints : Bool := false

def maxBlocks : Nat := 20

def reservedName : Text := "__debug__"

def bindable (name : Text) : Bool := name != reservedName

def Expr.isStarred : Expr → Bool
  | .starred _ => true
  | _ => false

def distinct (names : List Text) : Bool := decide names.Nodup

def maxBeforeStar : Nat := 256

/-- Whether a display whose items have these stars can be taken apart: there is at most one, and
not too many items stand in front of it. -/
def separable (stars : List Bool) : Bool :=
  stars.count true ≤ 1 && (!stars.contains true || (stars.takeWhile (!·)).length < maxBeforeStar)

mutual

def Expr.waits : Expr → Bool
  | .await _ => true
  | .name _ | .constant | .text | .bytes => false
  | .formatted es | .tuple es | .list es | .set es | .dictionary es | .operation es | .yield es =>
    waitsAny es
  | .attribute e _ | .starred e | .yieldFrom e | .named _ e => e.waits
  | .subscript a b => a.waits || b.waits
  | .call f es _ => f.waits || waitsAny es
  | .lambda _ ds _ => waitsAny ds
  | .comprehension kind es clauses =>
    outerSourceWaits clauses || (kind != .generator && (waitsAny es || clausesWait true clauses))

def waitsAny : List Expr → Bool
  | [] => false
  | e :: es => e.waits || waitsAny es

def outerSourceWaits : List Clause → Bool
  | [] => false
  | c :: _ => c.sourceWaits

def Clause.sourceWaits : Clause → Bool
  | .mk _ _ source _ => source.waits

/-- Whether loops wait in their own scope; the first one's source does not belong to it. -/
def clausesWait (first : Bool) : List Clause → Bool
  | [] => false
  | c :: cs => c.waits first || clausesWait false cs

def Clause.waits (first : Bool) : Clause → Bool
  | .mk isAsync target source conditions =>
    isAsync || target.waits || (!first && source.waits) || waitsAny conditions

end

mutual

def Expr.yields : Expr → Bool
  | .yield _ | .yieldFrom _ => true
  | .name _ | .constant | .text | .bytes => false
  | .formatted es | .tuple es | .list es | .set es | .dictionary es | .operation es => yieldsAny es
  | .attribute e _ | .starred e | .await e | .named _ e => e.yields
  | .subscript a b => a.yields || b.yields
  | .call f es _ => f.yields || yieldsAny es
  | .lambda _ ds _ => yieldsAny ds
  | .comprehension _ _ clauses => outerSourceYields clauses

def yieldsAny : List Expr → Bool
  | [] => false
  | e :: es => e.yields || yieldsAny es

def outerSourceYields : List Clause → Bool
  | [] => false
  | c :: _ => c.sourceYields

def Clause.sourceYields : Clause → Bool
  | .mk _ _ source _ => source.yields

end

mutual

/-- Targets to which values can be bound: displays can be taken apart, and the target itself is not
starred. -/
def Expr.isBindable : Expr → Bool
  | .name id => bindable id
  | .attribute _ attr => bindable attr
  | .starred _ => false
  | .tuple es => separable (es.map Expr.isStarred) && areBindable es
  | .list es => separable (es.map Expr.isStarred) && areBindable es
  | _ => true

def areBindable : List Expr → Bool
  | [] => true
  | e :: es => e.isBindableItem && areBindable es

def Expr.isBindableItem : Expr → Bool
  | .starred e => e.isBindable
  | .name id => bindable id
  | .attribute _ attr => bindable attr
  | .tuple es => separable (es.map Expr.isStarred) && areBindable es
  | .list es => separable (es.map Expr.isStarred) && areBindable es
  | _ => true

end

mutual

def Expr.isRemovable : Expr → Bool
  | .name id => bindable id
  | .tuple es | .list es => areRemovable es
  | _ => true

def areRemovable : List Expr → Bool
  | [] => true
  | e :: es => e.isRemovable && areRemovable es

end

mutual

def Expr.fits (s : Surroundings) : Expr → Bool
  | .name _ | .constant | .text | .bytes => true
  | .formatted es | .tuple es | .list es | .set es | .dictionary es | .operation es => fitAll s es
  | .attribute e _ => e.fits s
  | .starred e => e.fits s
  | .subscript a b => a.fits s && b.fits s
  | .call f es keywords => f.fits s && fitAll s es && keywords.all bindable && distinct keywords
  | .named id e => bindable id && !s.inSource && s.scope != .hint && e.fits s
  | .lambda ps ds body =>
    fitAll s ds && parametersFit s ps && body.fits { scope := .lambda, inSource := s.inSource }
  | .comprehension kind es clauses =>
    let inner : Surroundings := { scope := .comprehension, inSource := s.inSource }
    let isAsync := waitsAny es || clausesWait true clauses
    (!isAsync || kind == .generator || s.scope == .asyncFunction || s.scope == .comprehension ||
        s.scope == .hint) &&
      clausesFit s inner clauses && fitAll inner es
  | .await e => (s.scope == .asyncFunction || s.scope == .comprehension) && e.fits s
  | .yield es =>
    (s.scope == .function || s.scope == .asyncFunction || s.scope == .lambda) &&
      !es.any Expr.isStarred && fitAll s es
  | .yieldFrom e => (s.scope == .function || s.scope == .lambda) && e.fits s

def fitAll (s : Surroundings) : List Expr → Bool
  | [] => true
  | e :: es => e.fits s && fitAll s es

def clausesFit (outer inner : Surroundings) : List Clause → Bool
  | [] => true
  | c :: cs => c.fits outer inner && clausesFit inner inner cs

def Clause.fits (outer inner : Surroundings) : Clause → Bool
  | .mk _ target source conditions =>
    target.isBindable && target.fits inner && source.fits { outer with inSource := true } &&
      fitAll inner conditions

def parametersFit (s : Surroundings) : List Parameter → Bool
  | [] => true
  | p :: ps => p.fits s && parametersFit s ps

def Parameter.fits (s : Surroundings) : Parameter → Bool
  | .mk _ name hint => bindable name && fitAll s hint

end

mutual

def Pattern.bound : Pattern → List Text
  | .wildcard | .value _ | .star none => []
  | .capture name | .star (some name) => [name]
  | .sequence ps => patternsBound ps
  | .mapping _ ps rest => patternsBound ps ++ rest.toList
  | .object _ ps _ => patternsBound ps
  | .either ps => firstBound ps
  | .bind p name => p.bound ++ [name]

def patternsBound : List Pattern → List Text
  | [] => []
  | p :: ps => p.bound ++ patternsBound ps

def firstBound : List Pattern → List Text
  | [] => []
  | p :: _ => p.bound

end

def Pattern.isStar : Pattern → Bool
  | .star _ => true
  | _ => false

def sameNames (a b : List Text) : Bool := a.all b.contains && b.all a.contains

mutual

/-- Whether a pattern is well formed; one that always matches stands only where `always` allows
it. -/
def Pattern.fits (always : Bool) : Pattern → Bool
  | .wildcard => always
  | .capture _ => always
  | .value e => match e with | .formatted _ => false | _ => true
  | .star _ => true
  | .sequence ps => separable (ps.map Pattern.isStar) && patternsFit ps
  | .mapping keys ps _ => Key.areDistinct keys && patternsFit ps
  | .object _ ps keywords => distinct keywords && patternsFit ps
  | .either ps => alternativesFit always ps && sameBound ps
  | .bind p _ => p.fits always

def patternsFit : List Pattern → Bool
  | [] => true
  | p :: ps => p.fits true && patternsFit ps

def alternativesFit (always : Bool) : List Pattern → Bool
  | [] => true
  | p :: ps => p.fits (always && ps.isEmpty) && alternativesFit always ps

def sameBound : List Pattern → Bool
  | [] => true
  | p :: ps => allBind p.bound ps

def allBind (names : List Text) : List Pattern → Bool
  | [] => true
  | p :: ps => sameNames names p.bound && allBind names ps

end

mutual

def Stmt.yields : Stmt → Bool
  | .expression e => e.yields
  | .assign ts e => yieldsAny ts || e.yields
  | .augment t e => t.yields || e.yields
  | .annotate t _ h es => t.yields || h.yields || yieldsAny es
  | .returns es | .deletes es | .raises es | .asserts es => yieldsAny es
  | .globals _ | .nonlocals _ | .imports _ | .importsFrom _ _ _ _ | .pass | .breaks | .continues =>
    false
  | .function _ _ decorators ps ds result _ =>
    yieldsAny decorators || yieldsAny (ps.flatMap Parameter.hint) || yieldsAny ds || yieldsAny result
  | .classDef _ decorators bases _ _ => yieldsAny decorators || yieldsAny bases
  | .branch e a b => e.yields || yieldAnywhere a || yieldAnywhere b
  | .loop e a b => e.yields || yieldAnywhere a || yieldAnywhere b
  | .forLoop _ t e a b => t.yields || e.yields || yieldAnywhere a || yieldAnywhere b
  | .withBlock _ es ts a => yieldsAny es || yieldsAny ts || yieldAnywhere a
  | .tryBlock a _ hs b c => yieldAnywhere a || handlersYield hs || yieldAnywhere b || yieldAnywhere c
  | .matchBlock e cs => e.yields || casesYield cs

def yieldAnywhere : List Stmt → Bool
  | [] => false
  | s :: ss => s.yields || yieldAnywhere ss

def handlersYield : List Handler → Bool
  | [] => false
  | h :: hs => h.yields || handlersYield hs

def Handler.yields : Handler → Bool
  | .mk es _ body => yieldsAny es || yieldAnywhere body

def casesYield : List Case → Bool
  | [] => false
  | c :: cs => c.yields || casesYield cs

def Case.yields : Case → Bool
  | .mk _ es body => yieldsAny es || yieldAnywhere body

end

namespace Surroundings

def inBlocks (s : Surroundings) (n : Nat) : Surroundings := { s with blocks := s.blocks + n }

def shallow (s : Surroundings) : Bool := s.blocks ≤ maxBlocks

def ofHints (s : Surroundings) : Surroundings :=
  if s.defersHints then { s with scope := .hint } else s

end Surroundings

mutual

def Stmt.fits (s : Surroundings) : Stmt → Bool
  | .expression e => !e.isStarred && e.fits s
  | .assign ts e => ts.all Expr.isBindable && fitAll s ts && !e.isStarred && e.fits s
  | .augment t e => t.isBindable && t.fits s && !e.isStarred && e.fits s
  | .annotate t _ h es =>
    t.isBindable && t.fits s && h.fits s.ofHints && !es.any Expr.isStarred && fitAll s es
  | .returns es =>
    (s.scope == .function || s.scope == .asyncFunction) && !s.inGroupHandler &&
      !(s.yieldsAsync && !es.isEmpty) && !es.any Expr.isStarred && fitAll s es
  | .deletes es => areRemovable es && fitAll s es
  | .raises es => fitAll s es
  | .asserts es => fitAll s es
  | .globals _ | .nonlocals _ | .pass => true
  | .imports names => names.all bindable
  | .importsFrom _ _ names everything =>
    names.all bindable && (!everything || s.scope == .module)
  | .breaks => s.inLoop
  | .continues => s.inLoop
  | .function isAsync name decorators ps ds result body =>
    let inner : Surroundings :=
      { scope := if isAsync then .asyncFunction else .function
        yieldsAsync := isAsync && yieldAnywhere body
        defersHints := s.defersHints }
    bindable name && fitAll s decorators && parametersFit s.ofHints ps && fitAll s ds &&
      fitAll s.ofHints result && allFit inner body
  | .classDef name decorators bases keywords body =>
    bindable name && fitAll s decorators && fitAll s bases && keywords.all bindable &&
      distinct keywords && allFit { scope := .classBody, defersHints := s.defersHints } body
  | .branch e a b => e.fits s && allFit s a && allFit s b
  | .loop e a b =>
    let inner := { s.inBlocks 1 with inLoop := true }
    e.fits s && inner.shallow && allFit inner a && allFit s b
  | .forLoop isAsync t e a b =>
    let inner := { s.inBlocks 1 with inLoop := true }
    (!isAsync || s.scope == .asyncFunction) && t.isBindable && t.fits s && !e.isStarred && e.fits s &&
      inner.shallow && allFit inner a && allFit s b
  | .withBlock isAsync es ts a =>
    let inner := s.inBlocks es.length
    (!isAsync || s.scope == .asyncFunction) && fitAll s es && ts.all Expr.isBindable &&
      fitAll s ts && inner.shallow && allFit inner a
  | .tryBlock a isGroup hs b c =>
    let around := if c.isEmpty then s else s.inBlocks 1
    let inBody := if hs.isEmpty then around else around.inBlocks 1
    let inHandler := around.inBlocks 2
    let inHandler := if isGroup then { inHandler with inLoop := false, inGroupHandler := true }
      else inHandler
    inBody.shallow && allFit inBody a && (hs.isEmpty || inHandler.shallow) &&
      handlersFit around inHandler hs && allFit around b && allFit (s.inBlocks 1) c
  | .matchBlock e cs => e.fits s && casesFit s cs

def allFit (s : Surroundings) : List Stmt → Bool
  | [] => true
  | x :: xs => x.fits s && allFit s xs

def handlersFit (s inner : Surroundings) : List Handler → Bool
  | [] => true
  | h :: hs => h.fits s inner hs.isEmpty && handlersFit s inner hs

def Handler.fits (s inner : Surroundings) (isLast : Bool) : Handler → Bool
  | .mk es name body =>
    (!es.isEmpty || isLast) && fitAll s es && name.all bindable && allFit inner body

def casesFit (s : Surroundings) : List Case → Bool
  | [] => true
  | c :: cs => c.fits s cs.isEmpty && casesFit s cs

def Case.fits (s : Surroundings) (isLast : Bool) : Case → Bool
  | .mk p guards body =>
    p.fits (isLast || !guards.isEmpty) && distinct p.bound && p.bound.all bindable &&
      fitAll s guards && allFit s body

end

end DocLint.Grammar
