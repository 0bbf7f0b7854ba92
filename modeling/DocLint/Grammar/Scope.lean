import DocLint.Grammar.Placement

/-!
Names and scopes: what happens to each name of a scope, in order, and the rules that follow.
Parameters differ from each other, a name is declared global or nonlocal before anything else
happens to it, and a nonlocal name is bound in a function around.
-/

set_option autoImplicit false

namespace DocLint.Grammar

inductive Mark where
  | use
  | bind
  | imported
  | parameter
  | annotated
  | global
  | nonlocal
  | loopTarget
  | escape
  | passing
  deriving DecidableEq, Repr

abbrev Event := Text × Mark

inductive Scope where
  | mk (kind : ScopeKind) (events : List Event) (inner : List Scope)

structure Contribution where
  events : List Event := []
  inner : List Scope := []

namespace Contribution

instance : Append Contribution := ⟨fun a b => ⟨a.events ++ b.events, a.inner ++ b.inner⟩⟩

instance : Inhabited Contribution := ⟨{}⟩

def event (name : Text) (mark : Mark) : Contribution := { events := [(name, mark)] }

def ofNames (names : List Text) (mark : Mark) : Contribution := { events := names.map (·, mark) }

end Contribution

structure Naming where
  owner : Option Text := none
  inComprehension : Bool := false
  /-- The evaluation of annotations is deferred, so that names in them are not used there. -/
  defersHints : Bool := false

def Naming.resolve (n : Naming) (name : Text) : Text :=
  match n.owner with
  | none => name
  | some owner =>
    if "__".toList.isPrefixOf name && !"__".toList.isSuffixOf name then
      match owner.dropWhile (· = '_') with
      | [] => name
      | core => '_' :: core ++ name
    else name

def Scope.escaping : Scope → List Text
  | .mk _ events _ =>
    (events.filter fun e => e.2 = .escape ∨ e.2 = .passing).map (·.1)

def Contribution.ofComprehension (n : Naming) (inner : Contribution) : Contribution :=
  let scope := Scope.mk .comprehension inner.events inner.inner
  let mark := if n.inComprehension then .passing else .bind
  { events := scope.escaping.map (·, mark), inner := [scope] }

mutual

def Expr.targetNames (n : Naming) (mark : Mark) : Expr → Contribution
  | .name id => .event (n.resolve id) mark
  | .tuple es | .list es => targetsNames n mark es
  | .starred e => e.targetNames n mark
  | .attribute e _ => e.names n
  | .subscript a b => a.names n ++ b.names n
  | .formatted es | .set es | .dictionary es | .operation es | .yield es => namesAll n es
  | .call f es _ => f.names n ++ namesAll n es
  | .named _ e | .await e | .yieldFrom e => e.names n
  | .lambda _ _ _ | .comprehension _ _ _ | .constant | .text | .bytes => {}

def targetsNames (n : Naming) (mark : Mark) : List Expr → Contribution
  | [] => {}
  | e :: es => e.targetNames n mark ++ targetsNames n mark es

def Expr.names (n : Naming) : Expr → Contribution
  | .name id => .event (n.resolve id) .use
  | .constant | .text | .bytes => {}
  | .formatted es | .tuple es | .list es | .set es | .dictionary es | .operation es | .yield es =>
    namesAll n es
  | .attribute e _ | .starred e | .await e | .yieldFrom e => e.names n
  | .subscript a b => a.names n ++ b.names n
  | .call f es _ => f.names n ++ namesAll n es
  | .named id e =>
    let mark := if n.inComprehension then .escape else .bind
    e.names n ++ .event (n.resolve id) mark
  | .lambda ps ds body =>
    let m := { n with inComprehension := false }
    let inner := parameterNames m ps ++ body.names m
    let scope := Scope.mk .lambda inner.events inner.inner
    namesAll n ds ++ { inner := [scope] }
  | .comprehension _ es clauses =>
    let m := { n with inComprehension := true }
    let inner := clausesNames m true clauses ++ namesAll m es
    firstSource n clauses ++ Contribution.ofComprehension n inner

def namesAll (n : Naming) : List Expr → Contribution
  | [] => {}
  | e :: es => e.names n ++ namesAll n es

def firstSource (n : Naming) : List Clause → Contribution
  | [] => {}
  | c :: _ => c.sourceNames n

def Clause.sourceNames (n : Naming) : Clause → Contribution
  | .mk _ _ source _ => source.names n

def clausesNames (n : Naming) (first : Bool) : List Clause → Contribution
  | [] => {}
  | c :: cs => c.names n first ++ clausesNames n false cs

def Clause.names (n : Naming) (first : Bool) : Clause → Contribution
  | .mk _ target source conditions =>
    target.targetNames n .loopTarget ++ (if first then {} else source.names n) ++
      namesAll n conditions

def parameterNames (n : Naming) : List Parameter → Contribution
  | [] => {}
  | p :: ps => p.names n ++ parameterNames n ps

def Parameter.names (n : Naming) : Parameter → Contribution
  | .mk _ name _ => .event (n.resolve name) .parameter

end

def hintNames (n : Naming) (hints : List Expr) : Contribution :=
  let c := namesAll n hints
  if n.defersHints then { c with events := c.events.filter fun e => e.2 != .use } else c

mutual

def Stmt.names (n : Naming) : Stmt → Contribution
  | .expression e => e.names n
  | .assign ts e => targetsNames n .bind ts ++ e.names n
  | .augment t e => t.targetNames n .bind ++ e.names n
  | .annotate t isName h es =>
    let target := match t with
      | .name id =>
        if isName then .event (n.resolve id) .annotated
        else if es.isEmpty then {} else .event (n.resolve id) .bind
      | _ => t.targetNames n .bind
    target ++ hintNames n [h] ++ namesAll n es
  | .returns es | .raises es | .asserts es => namesAll n es
  | .deletes es => targetsNames n .bind es
  | .globals names => .ofNames (names.map n.resolve) .global
  | .nonlocals names => .ofNames (names.map n.resolve) .nonlocal
  | .imports names => .ofNames (names.map n.resolve) .imported
  | .importsFrom _ _ names _ => .ofNames (names.map n.resolve) .imported
  | .pass | .breaks | .continues => {}
  | .function _ name decorators ps ds result body =>
    let inner := parameterNames n ps ++ namesOf n body
    .event (n.resolve name) .bind ++ namesAll n ds ++ hintNames n (ps.flatMap Parameter.hint) ++
      hintNames n result ++ namesAll n decorators ++
      { inner := [Scope.mk .function inner.events inner.inner] }
  | .classDef name decorators bases _ body =>
    let inner := namesOf { n with owner := some name } body
    .event (n.resolve name) .bind ++ namesAll n bases ++ namesAll n decorators ++
      { inner := [Scope.mk .classBody inner.events inner.inner] }
  | .branch e a b => e.names n ++ namesOf n a ++ namesOf n b
  | .loop e a b => e.names n ++ namesOf n a ++ namesOf n b
  | .forLoop _ t e a b => t.targetNames n .bind ++ e.names n ++ namesOf n a ++ namesOf n b
  | .withBlock _ es ts a => namesAll n es ++ targetsNames n .bind ts ++ namesOf n a
  | .tryBlock a _ hs b c => namesOf n a ++ namesOf n b ++ handlersNames n hs ++ namesOf n c
  | .matchBlock e cs => e.names n ++ casesNames n cs

def namesOf (n : Naming) : List Stmt → Contribution
  | [] => {}
  | s :: ss => s.names n ++ namesOf n ss

def handlersNames (n : Naming) : List Handler → Contribution
  | [] => {}
  | h :: hs => h.names n ++ handlersNames n hs

def Handler.names (n : Naming) : Handler → Contribution
  | .mk es name body =>
    namesAll n es ++ .ofNames (name.toList.map n.resolve) .bind ++ namesOf n body

def casesNames (n : Naming) : List Case → Contribution
  | [] => {}
  | c :: cs => c.names n ++ casesNames n cs

def Case.names (n : Naming) : Case → Contribution
  | .mk p es body => .ofNames (p.bound.map n.resolve) .bind ++ namesAll n es ++ namesOf n body

end

/-- Whether a mark tells that a name was used or bound before. -/
def Mark.touches : Mark → Bool
  | .use | .bind | .parameter | .annotated => true
  | _ => false

def Mark.declares : Mark → Bool
  | .global | .nonlocal => true
  | _ => false

def Event.allowedAfter (kind : ScopeKind) (earlier : List Event) (e : Event) : Bool :=
  let before := fun (p : Mark → Bool) => earlier.any fun d => d.1 == e.1 && p d.2
  match e.2 with
  | .parameter => !before (· == .parameter)
  | .global => !before Mark.touches && !before (· == .nonlocal)
  | .nonlocal => kind != .module && !before Mark.touches && !before (· == .global)
  | .annotated => kind == .module || !before Mark.declares
  | .loopTarget => !before (· == .escape)
  | .escape => !before (· == .loopTarget)
  | .passing => !before (· == .loopTarget)
  | _ => true

def eventsAllowed (kind : ScopeKind) (earlier : List Event) : List Event → Bool
  | [] => true
  | e :: es => e.allowedAfter kind earlier && eventsAllowed kind (e :: earlier) es

def namesWith (events : List Event) (p : Mark → Bool) : List Text :=
  (events.filter fun e => p e.2).map (·.1)

def ownNames (events : List Event) : List Text :=
  let declared := namesWith events Mark.declares
  (namesWith events fun m =>
    m == .bind || m == .imported || m == .parameter || m == .annotated || m == .loopTarget).filter
    fun x => !declared.contains x

def visibleInside (kind : ScopeKind) (events : List Event) (bound : List Text) : List Text :=
  match kind with
  | .module => []
  | .classBody => "__class__".toList :: bound
  | _ =>
    let globals := namesWith events (· == .global)
    ownNames events ++ bound.filter fun x => !globals.contains x

mutual

/-- Whether a scope keeps the rules, where `bound` are the names of the functions around it. -/
def Scope.isValid (bound : List Text) : Scope → Bool
  | .mk kind events inner =>
    eventsAllowed kind [] events &&
      (namesWith events (· == .nonlocal)).all bound.contains &&
      (kind != .classBody || inner.all fun s => s.bindsNothingOutside) &&
      areValid (visibleInside kind events bound) inner

def Scope.bindsNothingOutside : Scope → Bool
  | .mk kind events _ =>
    kind != .comprehension || !events.any fun e => e.2 == .escape || e.2 == .passing

def areValid (bound : List Text) : List Scope → Bool
  | [] => true
  | s :: ss => s.isValid bound && areValid bound ss

end

def Scope.ofProgram (defersHints : Bool) (body : List Stmt) : Scope :=
  let c := namesOf { defersHints } body
  .mk .module c.events c.inner

end DocLint.Grammar
