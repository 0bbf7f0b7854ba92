import DocLint.Grammar.Accept

/-!
The parameters of a function come in a fixed order: the positional ones, the ordinary ones, perhaps one for
the rest of the positional arguments, those that are only given by keyword, and perhaps one for the rest of
the keywords.
-/

set_option autoImplicit false

namespace DocLint.Grammar

/-! ### What a rule reads -/

def Rule.Yields {α : Type} (r : Rule α) (P : α → Prop) : Prop := ∀ ts a rest, r ts = some (a, rest) → P a

namespace Rule

variable {α β : Type} {r q : Rule α} {f : α → Rule β} {P : α → Prop} {R : β → Prop} {a : α}

theorem Yields.bind (hr : r.Yields P) (hf : ∀ a, P a → (f a).Yields R) : (r >>= f).Yields R := by
  intro ts b rest h
  obtain ⟨⟨a,mid⟩,hread,hnext⟩ := Option.bind_eq_some_iff.mp h
  exact hf a (hr ts a mid hread) mid b rest hnext

theorem yields_then (hf : ∀ a, (f a).Yields R) : (r >>= f).Yields R :=
  Yields.bind (P := fun _ => True) (fun _ _ _ _ => trivial) fun a _ => hf a

theorem yields_pure (h : P a) : Yields (pure a : Rule α) P := by
  intro ts b rest heq
  cases heq
  exact h

theorem yields_ite {c : Prop} [Decidable c] (hr : r.Yields P) (hq : q.Yields P) :
    (if c then r else q).Yields P := by
  split
  · exact hr
  · exact hq

theorem yields_failure : Yields (failure : Rule α) P := by
  intro ts b rest heq
  cases heq

theorem yields_require (b : Bool) : (require b).Yields fun _ => b = true := by
  intro ts u rest heq
  cases b with
  | true => rfl
  | false => cases heq

theorem Yields.orElse (hr : r.Yields P) (hq : q.Yields P) : (r <|> q).Yields P := by
  intro ts a rest h
  change (r ts <|> q ts) = some (a, rest) at h
  cases hread : r ts with
  | none =>
    rw [hread] at h
    exact hq ts a rest h
  | some p =>
    rw [hread] at h
    exact hr ts a rest (hread.trans h)

theorem Yields.repeated (hr : r.Yields P) (fuel : Nat) : (r.repeated fuel).Yields fun as => ∀ a ∈ as, P a := by
  induction fuel with
  | zero =>
    intro ts as rest h
    cases h
    simp
  | succ fuel ih =>
    intro ts as rest h
    rw [Rule.repeated.eq_def] at h
    dsimp only at h
    cases hread : r ts with
    | none =>
      rw [hread] at h
      cases h
      simp
    | some p =>
      obtain ⟨a,mid⟩ := p
      rw [hread] at h
      obtain ⟨⟨more,last⟩,hmore,heq⟩ := Option.map_eq_some_iff.mp h
      cases heq
      exact List.forall_mem_cons.mpr ⟨hr ts a mid hread,ih mid more _ hmore⟩

theorem Yields.many (hr : r.Yields P) : r.many.Yields fun as => ∀ a ∈ as, P a :=
  fun ts => hr.repeated ts.length ts

theorem Yields.separated {sep : Rule β} (hr : r.Yields P) :
    (r.separated sep).Yields fun as => ∀ a ∈ as, P a := by
  refine hr.bind fun a ha => ?_
  refine (Yields.many (yields_then fun _ => hr)).bind fun as has => ?_
  exact yields_pure (List.forall_mem_cons.mpr ⟨ha,has⟩)

end Rule

/-! ### Parameters -/

structure ParameterGroups where
  positional : List Text
  ordinary : List Text
  rest : Option Text
  keywordOnly : List Text
  keywordRest : Option Text

def ParameterGroups.written (g : ParameterGroups) : List (ParameterRole × Text) :=
  g.positional.map (Prod.mk .positionalOnly) ++ (g.ordinary.map (Prod.mk .ordinary) ++
    (g.rest.toList.map (Prod.mk .rest) ++ (g.keywordOnly.map (Prod.mk .keywordOnly) ++
      g.keywordRest.toList.map (Prod.mk .keywordRest))))

def Parameter.tagged (p : Parameter) : ParameterRole × Text := (p.role, p.name)

def InOrder (ps : List Parameter) : Prop := ∃ g : ParameterGroups, ps.map Parameter.tagged = g.written

/-- The parameters read so far are in order, and flags tell which kinds there cannot be. -/
def Arranged (ps : List Parameter) (sawSlash sawStar closed : Bool) : Prop :=
  ∃ g : ParameterGroups, ps.map Parameter.tagged = g.written ∧ (sawSlash = false → g.positional = []) ∧
    (sawStar = false → g.rest = none ∧ g.keywordOnly = []) ∧ (closed = false → g.keywordRest = none)

namespace Arranged

variable {ps : List Parameter} {sawSlash sawStar closed : Bool}

theorem nil : Arranged [] false false false := ⟨⟨[],[],none,[],none⟩,by simp [ParameterGroups.written]⟩

theorem mark (h : Arranged ps false false false) : Arranged (Rules.markPositional ps) true false false := by
  obtain ⟨g,hwritten,hslash,hstar,hclosed⟩ := h
  refine ⟨⟨g.ordinary,[],none,[],none⟩,?_,by simp⟩
  have hordinary : ps.map Parameter.tagged = g.ordinary.map (Prod.mk .ordinary) := by
    simpa [ParameterGroups.written,hslash,hstar,hclosed] using hwritten
  have hnames : ps.map Parameter.name = g.ordinary := by
    simpa [Function.comp_def,Parameter.tagged] using congrArg (List.map Prod.snd) hordinary
  simp [ParameterGroups.written,Rules.markPositional,Parameter.tagged,Parameter.role,Parameter.name,← hnames]

theorem star (h : Arranged ps sawSlash sawStar closed) : Arranged ps sawSlash true closed := by
  obtain ⟨g,hwritten,hslash,-,hclosed⟩ := h
  exact ⟨g,hwritten,hslash,by simp,hclosed⟩

theorem addKeywordRest (h : Arranged ps sawSlash sawStar false) (id : Text) (hint : List Expr) :
    Arranged (ps ++ [.mk .keywordRest id hint]) sawSlash sawStar true := by
  obtain ⟨g,hwritten,hslash,hstar,hclosed⟩ := h
  refine ⟨{ g with keywordRest := some id },?_,hslash,hstar,by simp⟩
  simp [hwritten,ParameterGroups.written,hclosed rfl,Parameter.tagged,Parameter.role,Parameter.name]

theorem addRest (h : Arranged ps sawSlash false false) (id : Text) (hint : List Expr) :
    Arranged (ps ++ [.mk .rest id hint]) sawSlash true false := by
  obtain ⟨g,hwritten,hslash,hstar,hclosed⟩ := h
  refine ⟨{ g with rest := some id },?_,hslash,by simp,hclosed⟩
  simp [hwritten,ParameterGroups.written,hclosed rfl,hstar rfl,Parameter.tagged,Parameter.role,Parameter.name]

theorem addNamed (h : Arranged ps sawSlash sawStar false) (id : Text) (hint : List Expr) :
    Arranged (ps ++ [.mk (if sawStar then .keywordOnly else .ordinary) id hint]) sawSlash sawStar false := by
  obtain ⟨g,hwritten,hslash,hstar,hclosed⟩ := h
  cases sawStar with
  | true =>
    refine ⟨{ g with keywordOnly := g.keywordOnly ++ [id] },?_,hslash,by simp,hclosed⟩
    simp [hwritten,ParameterGroups.written,hclosed rfl,Parameter.tagged,Parameter.role,Parameter.name]
  | false =>
    refine ⟨{ g with ordinary := g.ordinary ++ [id] },?_,hslash,hstar,hclosed⟩
    simp [hwritten,ParameterGroups.written,hclosed rfl,hstar rfl,Parameter.tagged,Parameter.role,Parameter.name]

end Arranged

namespace Rules

open Grammar.Rule

variable (g : Rules)

def ParameterState.Arranged (s : ParameterState) : Prop :=
  Grammar.Arranged s.parameters s.sawSlash s.sawStar s.closed

theorem parameterPart_yields (hints : Bool) {s : ParameterState} (h : s.Arranged) :
    (g.parameterPart hints s).Yields ParameterState.Arranged := by
  obtain ⟨ps,defaults,sawDefault,sawSlash,sawStar,bareStar,closed⟩ := s
  unfold parameterPart
  refine (yields_require _).bind fun _ hopen => yields_then fun slash => ?_
  obtain rfl : closed = false := by simpa using hopen
  split
  · refine (yields_require _).bind fun _ hfirst => yields_pure ?_
    obtain ⟨⟨rfl,rfl⟩,-⟩ : (sawSlash = false ∧ sawStar = false) ∧ ps ≠ [] := by simpa using hfirst
    exact Arranged.mark h
  · refine yields_then fun twoStars => ?_
    split
    · exact yields_then fun _ => yields_then fun id => yields_then fun hint =>
        yields_pure (Arranged.addKeywordRest h id hint)
    · refine yields_then fun oneStar => ?_
      split
      · refine (yields_require _).bind fun _ hfirst => yields_then fun bare => ?_
        obtain rfl : sawStar = false := by simpa using hfirst
        split
        · exact yields_pure (Arranged.star h)
        · exact yields_then fun id => yields_then fun hint => yields_pure (Arranged.addRest h id hint)
      · refine yields_then fun id => yields_then fun hint => yields_then fun default => ?_
        split
        · exact yields_then fun _ => yields_pure (Arranged.addNamed h id hint)
        · exact yields_then fun _ => yields_pure (Arranged.addNamed h id hint)

theorem parameterParts_yields (hints : Bool) (close : Text) (fuel : Nat) {s : ParameterState} (h : s.Arranged) :
    (g.parameterParts hints close fuel s).Yields ParameterState.Arranged := by
  induction fuel generalizing s with
  | zero => exact yields_failure
  | succ fuel ih =>
    unfold parameterParts
    refine yields_then fun closes => ?_
    split
    · exact yields_pure h
    · refine (g.parameterPart_yields hints h).bind fun s' hs' => yields_then fun comma => ?_
      split
      · exact ih hs'
      · exact yields_then fun _ => yields_then fun _ => yields_pure hs'

theorem parameters_yields (hints : Bool) (close : Text) :
    (g.parameters hints close).Yields fun p => InOrder p.1 := by
  unfold parameters
  refine yields_then fun ts => (g.parameterParts_yields hints close _ (s := {}) Arranged.nil).bind fun s hs => ?_
  obtain ⟨groups,hwritten,-⟩ := hs
  exact yields_then fun _ => yields_pure ⟨groups,hwritten⟩

/-! ### Functions -/

def OrderedFunction : Stmt → Prop
  | .function _ _ _ parameters _ _ _ => InOrder parameters
  | _ => True

theorem functionDef_yields (isAsync : Bool) (decorators : List Expr) :
    (g.functionDef isAsync decorators).Yields OrderedFunction := by
  unfold functionDef
  refine yields_then fun _ => yields_then fun id => yields_then fun _ => ?_
  refine (g.parameters_yields true ")".toList).bind fun p hp => ?_
  refine yields_then fun _ => yields_then fun arrow => ?_
  split
  · exact yields_then fun _ => yields_then fun _ => yields_then fun _ => yields_then fun _ => yields_pure hp
  · exact yields_then fun _ => yields_then fun _ => yields_then fun _ => yields_pure hp

-- The other statements are walked through, step by step and branch by branch, to results that are no
-- functions.
theorem classDefinition_yields (decorators : List Expr) :
    (g.classDefinition decorators).Yields OrderedFunction := by
  unfold classDefinition
  repeat' first
    | exact yields_pure trivial
    | refine yields_ite ?_ ?_
    | refine yields_then fun _ => ?_

theorem forStatement_yields (isAsync : Bool) : (g.forStatement isAsync).Yields OrderedFunction := by
  unfold forStatement
  repeat' first
    | exact yields_pure trivial
    | refine yields_ite ?_ ?_
    | refine yields_then fun _ => ?_

theorem withStatement_yields [Resources] (isAsync : Bool) : (g.withStatement isAsync).Yields OrderedFunction := by
  unfold withStatement
  repeat' first
    | exact yields_pure trivial
    | refine yields_ite ?_ ?_
    | refine yields_then fun _ => ?_

theorem tryStatement_yields : g.tryStatement.Yields OrderedFunction := by
  unfold tryStatement
  repeat' first
    | exact yields_pure trivial
    | refine yields_ite ?_ ?_
    | refine yields_then fun _ => ?_

theorem matchStatement_yields [Resources] : g.matchStatement.Yields OrderedFunction := by
  unfold matchStatement
  repeat' first
    | exact yields_pure trivial
    | refine yields_ite ?_ ?_
    | refine yields_then fun _ => ?_
    | split

theorem importFrom_yields : importFrom.Yields OrderedFunction := by
  unfold importFrom
  repeat' first
    | exact yields_pure trivial
    | refine yields_ite ?_ ?_
    | refine yields_then fun _ => ?_

theorem assignment_yields (fuel : Nat) (targets : List Expr) (e : Expr) :
    (g.assignment fuel targets e).Yields OrderedFunction := by
  induction fuel generalizing targets e with
  | zero => exact yields_failure
  | succ fuel ih =>
    unfold assignment
    repeat' first
      | exact yields_pure trivial
      | exact ih _ _
      | refine yields_ite ?_ ?_
      | refine yields_then fun _ => ?_

theorem expressionStatement_yields : g.expressionStatement.Yields OrderedFunction := by
  unfold expressionStatement
  repeat' first
    | exact yields_pure trivial
    | exact g.assignment_yields _ _ _
    | refine yields_ite ?_ ?_
    | refine yields_then fun _ => ?_
    | split

theorem simpleStatement_yields [Resources] : g.simpleStatement.Yields OrderedFunction := by
  unfold simpleStatement
  repeat' first
    | exact yields_pure trivial
    | exact importFrom_yields
    | exact g.expressionStatement_yields
    | refine yields_ite ?_ ?_
    | refine yields_then fun _ => ?_
    | split

theorem simpleStatements_yields [Resources] : g.simpleStatements.Yields fun m => ∀ p ∈ m, OrderedFunction p.2 := by
  unfold simpleStatements
  refine Yields.bind (Yields.separated (P := fun p => OrderedFunction p.2) ?_) fun statements h => ?_
  · refine yields_then fun ts => ?_
    exact g.simpleStatement_yields.bind fun stmt hstmt => yields_pure hstmt
  · exact yields_then fun _ => yields_then fun _ => yields_pure h

theorem decorated_yields (decorators : List Expr) : (g.decorated decorators).Yields OrderedFunction := by
  unfold decorated
  refine yields_then fun _ => yields_ite (g.classDefinition_yields decorators) ?_
  exact yields_then fun isAsync => g.functionDef_yields isAsync decorators

theorem asyncStatement_yields [Resources] : g.asyncStatement.Yields OrderedFunction := by
  unfold asyncStatement
  refine yields_then fun _ => yields_then fun _ => yields_ite (g.withStatement_yields true) ?_
  exact yields_then fun _ => yields_ite (g.forStatement_yields true) (g.functionDef_yields true [])

theorem compoundStatement_yields [Resources] : g.compoundStatement.Yields OrderedFunction := by
  unfold compoundStatement
  refine yields_then fun _ => yields_ite (g.functionDef_yields false []) ?_
  refine yields_then fun _ => yields_ite (yields_then fun decorators => g.decorated_yields decorators) ?_
  refine yields_then fun _ => yields_ite ?_ ?_
  · exact yields_then fun _ => yields_then fun _ => yields_then fun _ => yields_then fun _ => yields_pure trivial
  refine yields_then fun _ => yields_ite (g.classDefinition_yields []) ?_
  refine yields_then fun _ => yields_ite g.asyncStatement_yields ?_
  refine yields_then fun _ => yields_ite (g.withStatement_yields false) ?_
  refine yields_then fun _ => yields_ite (g.forStatement_yields false) ?_
  refine yields_then fun _ => yields_ite g.tryStatement_yields ?_
  refine yields_then fun _ => yields_ite ?_ g.matchStatement_yields
  exact yields_then fun _ => yields_then fun _ => yields_then fun _ => yields_then fun _ => yields_pure trivial

theorem statement_yields [Resources] : g.statement.Yields fun m => ∀ p ∈ m, OrderedFunction p.2 := by
  unfold statement
  refine yields_then fun ts => Yields.orElse ?_ g.simpleStatements_yields
  refine g.compoundStatement_yields.bind fun stmt hstmt => yields_pure ?_
  simpa using hstmt

end Rules

/-- The parameters of every function that stands in a source text on its own are in order. -/
theorem inOrder_of_parse [Resources] {source : Text} {m : Program} (h : parse? source = some m) :
    ∀ p ∈ m, Rules.OrderedFunction p.2 := by
  obtain ⟨ts,-,h⟩ := Option.bind_eq_some_iff.mp h
  obtain ⟨⟨statements,rest⟩,hread,h⟩ := Option.bind_eq_some_iff.mp h
  have hall := ((Rules.atDepth (source.length + 2)).statement_yields).many ts statements rest hread
  dsimp only at h
  split at h
  · split at h
    · cases h
      intro p hp
      obtain ⟨m,hm,hp⟩ := List.mem_flatten.mp hp
      exact hall m hm p hp
    · cases h
  · cases h

def openingParameters? [Resources] (source : Text) : Option (List Parameter) :=
  match parse? source with
  | some ((_, .function _ _ _ parameters _ _ _) :: _) => some parameters
  | _ => none

theorem inOrder_openingParameters [Resources] {source : Text} {ps : List Parameter} (h : openingParameters? source = some ps) :
    InOrder ps := by
  unfold openingParameters? at h
  split at h
  · rename_i hparse
    cases h
    exact inOrder_of_parse hparse _ (List.mem_cons_self ..)
  · cases h

end DocLint.Grammar
