import DocLint.Proofs.Outline.Turns
import DocLint.Resources.Builtin

/-!
What is known about the exported names between two turns of the loop over the definitions of a module.
It depends on the number of statements about them: nothing is known before the first one, behind it either
their value or a fault, and behind a second one a fault for good.
-/

set_option autoImplicit false

namespace DocLint.Outline

variable {α β : Type} {ts : List Token} {k j : Nat} {t : Token} {s s' s₁ : State}

def State.stated (s : State) : Option Exports × Option ExportFault := (s.exports, s.exportFault)

/-! ### Readers that state nothing -/

/-- A reader leaves what is known of the exported names as it is. -/
def Keeps (r : Reader α) : Prop := ∀ x, Ensures (·.stated = x) r fun _ s => s.stated = x

namespace Keeps

variable {r : Reader α} {f : α → Reader β}

theorem stated_eq {a : α} (h : Keeps r) (hr : r s = .ok a s') : s'.stated = s.stated := h s.stated s a s' rfl hr

theorem ensures (h : Keeps r) (P : Option Exports × Option ExportFault → Prop) :
    Ensures (fun s => P s.stated) r fun _ s => P s.stated := by
  intro s a s' hP hr
  rw [h.stated_eq hr]
  exact hP

theorem pure {a : α} : Keeps (pure a : Reader α) := fun _ => Ensures.pure fun _ h => h

theorem throw_bind {e : Fault} {f : α → Reader β} : Keeps ((throw e : Reader α) >>= f) :=
  fun _ => Ensures.throw_bind

theorem throw {e : Fault} : Keeps (throw e : Reader α) := fun _ => Ensures.throw e

theorem bind (hr : Keeps r) (hf : ∀ a, Keeps (f a)) : Keeps (r >>= f) := fun x => (hr x).bind fun a => hf a x

theorem modify {g : State → State} (hg : ∀ s, (g s).stated = s.stated) : Keeps (modify g) :=
  fun _ => Ensures.modify fun s hs => (hg s).trans hs

theorem get : Keeps (get : Reader State) := by
  intro x s a s' hs h
  cases h
  exact hs

theorem note (e : Note) : Keeps (note e) := modify fun _ => rfl

theorem line : Keeps line := get.bind fun _ => pure

theorem current? : Keeps current? := get.bind fun _ => pure

theorem current : Keeps current := by
  refine current?.bind fun t => ?_
  cases t with
  | none => exact throw
  | some t => exact pure

theorem move : Keeps move := by
  intro x s a s' hs h
  obtain ⟨y,s₁,hy,h⟩ := bind_eq_ok h
  cases hy
  cases hrest : s.rest with
  | nil => simp [hrest] at h; cases h
  | cons t ts =>
    simp only [hrest] at h
    cases h
    exact hs

theorem consume (kind : TokenKind) : Keeps (consume kind) := by
  refine move.bind fun t => ?_
  split
  · exact throw
  · exact pure

theorem loop {step : α → Reader (α ⊕ β)} (h : ∀ a, Keeps (step a)) (a : α) : Keeps (loop step a) := by
  refine fun x => Ensures.loop (I := fun _ s => s.stated = x) (fun a => (h a x).imp (fun _ hs => hs) ?_) a
  intro v s hs
  cases v <;> exact hs

end Keeps

theorem leapfrog_keeps (kind : TokenKind) (value : Option Text) : Keeps (leapfrog kind value) := by
  refine Keeps.loop (fun _ => Keeps.current?.bind fun t => ?_) ()
  cases t with
  | none => exact Keeps.pure
  | some t => exact Keeps.move.bind fun _ => Keeps.pure

theorem skipComment_keeps : Keeps skipComment := by
  refine Keeps.loop (fun _ => Keeps.current.bind fun t => ?_) ()
  split
  · exact Keeps.move.bind fun _ => Keeps.current.bind fun _ => (Keeps.note _).bind fun _ => Keeps.pure
  · exact Keeps.pure

theorem docstring_keeps : Keeps docstring := by
  refine Keeps.current?.bind fun _ => (Keeps.note _).bind fun _ => Keeps.loop (fun _ => ?_) ()
  refine Keeps.current.bind fun t => ?_
  split
  · exact Keeps.move.bind fun _ => Keeps.current.bind fun _ => (Keeps.note _).bind fun _ => Keeps.pure
  · split
    · exact Keeps.move.bind fun _ => Keeps.pure
    · exact Keeps.pure

theorem decorators_keeps : Keeps decorators := by
  refine Keeps.loop (fun d => Keeps.current?.bind fun t => ?_) _
  have hadd (d : Decorator) : Keeps (addDecorator d) := Keeps.modify fun _ => rfl
  cases t with
  | none => exact (hadd _).bind fun _ => Keeps.pure
  | some t =>
    refine (Keeps.note _).bind fun _ => ?_
    split
    · exact (hadd _).bind fun _ => Keeps.pure
    · split
      · exact (hadd _).bind fun _ => Keeps.move.bind fun _ => Keeps.pure
      · exact Keeps.move.bind fun _ => Keeps.pure

theorem importSource_keeps : Keeps importSource := by
  have hloop (isFeature : Bool) : Keeps (loop (importSourceStep isFeature) ()) := by
    refine Keeps.loop (fun _ => Keeps.current?.bind fun t => ?_) ()
    cases t with
    | none => exact Keeps.pure
    | some t =>
      dsimp only
      split
      · exact Keeps.move.bind fun _ => Keeps.pure
      · split
        · exact Keeps.move.bind fun _ => Keeps.pure
        · exact Keeps.pure
  refine Keeps.current.bind fun t => ?_
  split
  · exact Keeps.throw_bind
  · exact Keeps.move.bind fun _ => Keeps.current.bind fun _ => Keeps.move.bind fun _ => hloop _

theorem importedName_keeps (isFeature : Bool) (t : Token) : Keeps (importedName isFeature t) := by
  have hrest : Keeps (do
      consume .name
      note (.imported (← current))
      importedAlias
      importedComma
      note (.imported (← current))) := by
    refine (Keeps.consume _).bind fun _ => Keeps.current.bind fun _ => (Keeps.note _).bind fun _ => ?_
    refine Keeps.bind (Keeps.current.bind fun t => ?_) fun _ =>
      Keeps.bind (Keeps.current.bind fun t => ?_) fun _ => Keeps.current.bind fun _ => Keeps.note _
    · split
      · refine (Keeps.consume _).bind fun _ => Keeps.current.bind fun t => ?_
        split
        · exact Keeps.consume _
        · exact Keeps.pure
      · exact Keeps.pure
    · split
      · exact Keeps.consume _
      · exact Keeps.pure
  refine (Keeps.note _).bind fun _ => ?_
  split
  · refine Keeps.bind ((Keeps.note _).bind fun _ => Keeps.modify fun s => ?_) fun _ => hrest
    split <;> rfl
  · exact hrest

theorem fromImport_keeps : Keeps fromImport := by
  refine (Keeps.note _).bind fun _ => importSource_keeps.bind fun isFeature => ?_
  have hloop (bracketed : Bool) : Keeps (loop (importedNamesStep isFeature bracketed) ()) := by
    refine Keeps.loop (fun _ => Keeps.current.bind fun t => ?_) ()
    split
    · exact Keeps.pure
    · split
      · exact (importedName_keeps isFeature t).bind fun _ => Keeps.pure
      · exact Keeps.move.bind fun _ => Keeps.pure
  refine Keeps.current.bind fun t => ?_
  dsimp only
  split
  · exact (Keeps.consume _).bind fun _ => hloop _
  · exact hloop _

theorem headerEnd_keeps : Keeps headerEnd := by
  have hparameters : Keeps parameters := by
    refine Keeps.loop (fun level => Keeps.current.bind fun t => ?_) 0
    split
    · exact Keeps.pure
    · exact Keeps.move.bind fun _ => Keeps.pure
  have hcolon : Keeps (do if (← current).is .op ":" then consume .op else leapfrog .op (some ":")) := by
    refine Keeps.current.bind fun t => ?_
    split
    · exact Keeps.consume _
    · exact leapfrog_keeps _ _
  refine Keeps.current.bind fun t => ?_
  split
  · exact hparameters.bind fun _ => hcolon
  · exact hcolon

theorem takePending_keeps : Keeps takePending :=
  Keeps.get.bind fun _ => (Keeps.note _).bind fun _ => Keeps.bind (Keeps.modify fun _ => rfl) fun _ =>
    Keeps.pure

theorem definitionWith_keeps {nested : Region → Reader (List Definition)} (h : ∀ r, Keeps (nested r))
    (kind : DefinitionKind) : Keeps (definitionWith nested kind) := by
  refine Keeps.line.bind fun _ => (Keeps.consume _).bind fun _ => Keeps.current.bind fun _ =>
    (Keeps.note _).bind fun _ => Keeps.move.bind fun _ => headerEnd_keeps.bind fun _ =>
    Keeps.current.bind fun first => ?_
  have hdone (d : Definition) (name : Text) : Keeps (do
      note (.definitionDone kind name (← current?))
      return d) := Keeps.current?.bind fun _ => (Keeps.note _).bind fun _ => Keeps.pure
  dsimp only
  split
  · refine skipComment_keeps.bind fun skipped => (leapfrog_keeps _ _).bind fun _ =>
      Keeps.current.bind fun t => ?_
    split
    · exact Keeps.throw_bind
    · exact docstring_keeps.bind fun _ => takePending_keeps.bind fun _ => (Keeps.note _).bind fun _ =>
        (h _).bind fun _ => (Keeps.note _).bind fun _ => Keeps.line.bind fun _ =>
        Keeps.pure.bind fun _ => hdone _ _
  · exact docstring_keeps.bind fun _ => takePending_keeps.bind fun _ => Keeps.line.bind fun _ =>
      (leapfrog_keeps _ _).bind fun _ => Keeps.pure.bind fun _ => hdone _ _

theorem turnAt_keeps [Resources] {nested : Region → Reader (List Definition)} (h : ∀ r, Keeps (nested r))
    {region : Region} {exporting fresh : Bool} (he : (exporting && t.value == exportName) = false) :
    Keeps (turnAt nested region exporting fresh t) := by
  unfold turnAt
  rw [he]
  simp only [Bool.false_eq_true,if_false]
  split
  · exact (Keeps.consume _).bind fun _ => decorators_keeps.bind fun _ => Keeps.pure
  · split
    · exact (definitionWith_keeps h _).bind fun _ => Keeps.pure
    · split
      · exact (Keeps.consume _).bind fun _ => (h _).bind fun _ => Keeps.pure
      · split
        · exact (Keeps.consume _).bind fun _ => Keeps.pure
        · split
          · exact fromImport_keeps.bind fun _ => Keeps.pure
          · exact Keeps.move.bind fun _ => Keeps.pure

/-- The definitions of a block state nothing, whatever is said in it about the exported names. -/
theorem definitionsWithin_keeps [Resources] (fuel : Nat) (region : Region) :
    Keeps (definitionsWithin fuel region false) := by
  induction fuel generalizing region with
  | zero => exact Keeps.throw
  | succ fuel ih =>
    refine Keeps.current?.bind fun t => ?_
    cases t with
    | none => exact Keeps.pure
    | some t =>
      refine Keeps.get.bind fun _ => (Keeps.note _).bind fun _ => ?_
      rw [definitionsAt_eq]
      refine (turnAt_keeps ih (by simp)).bind fun found => ?_
      dsimp only
      split
      · exact (ih region).bind fun _ => Keeps.pure
      · exact Keeps.pure

theorem definitions_keeps [Resources] (region : Region) : Keeps (definitions region false) :=
  Keeps.get.bind fun _ => definitionsWithin_keeps _ region

/-! ### The statement -/

def Settled (x : Option Exports × Option ExportFault) : Prop :=
  (x.1.isSome = true ∧ x.2 = none) ∨ (x.1 = none ∧ x.2.isSome = true)

def Refused (x : Option Exports × Option ExportFault) : Prop := x.1 = none ∧ x.2.isSome = true

theorem refuseExports_refused {P : State → Prop} (fault : ExportFault) :
    Ensures P (refuseExports fault) fun _ s => Refused s.stated := Ensures.modify fun _ _ => ⟨rfl,rfl⟩

theorem exportContent_keeps (surrounded : Bool) : Keeps (exportContent surrounded) := by
  refine Keeps.loop (fun content => Keeps.current.bind fun t => ?_) []
  split
  · exact Keeps.pure
  · split
    · exact Keeps.pure
    · split
      · exact Keeps.move.bind fun _ => Keeps.pure
      · split
        · exact Keeps.move.bind fun _ => Keeps.pure
        · exact Keeps.pure

theorem exportsEnd_settled :
    Ensures (fun s => Settled s.stated) exportsEnd fun _ s => Settled s.stated := by
  refine Ensures.loop (I := fun _ s => Settled s.stated) (fun _ => ?_) ()
  refine (Keeps.current.ensures Settled).bind fun t => ?_
  split
  · exact Ensures.pure fun _ hs => hs
  · split
    · exact (Keeps.move.ensures Settled).bind fun _ => Ensures.pure fun _ hs => hs
    · exact (refuseExports_refused _).bind fun _ => Ensures.pure fun _ hs => .inr hs

theorem evaluateExports_settled [Resources] (content : Text) :
    Ensures (fun s => s.stated = (none,none)) (evaluateExports content) fun _ s => Settled s.stated := by
  refine Ensures.modify fun s hs => ?_
  obtain ⟨hexports,hfault⟩ := Prod.mk.inj hs
  cases Exports.evaluate content with
  | ok e => exact .inl ⟨rfl,hfault⟩
  | error e => exact .inr ⟨hexports,rfl⟩

theorem exportedContent_settled [Resources] (surrounded : Bool) :
    Ensures (fun s => s.stated = (none,none)) (exportedContent surrounded) fun _ s => Settled s.stated := by
  have hfault (fault : ExportFault) : Ensures (fun s => s.stated = (none,none))
      (modify fun s => { s with exportFault := some fault }) fun _ s => Settled s.stated :=
    Ensures.modify fun s hs => .inr ⟨(Prod.mk.inj hs).1,rfl⟩
  refine ((exportContent_keeps surrounded).ensures (· = (none,none))).bind fun content => ?_
  cases content with
  | none => exact hfault _
  | some content =>
    have hclosed : Ensures (fun s => s.stated = (none,none)) (do
        if !surrounded && !content.contains ',' then
          let kind := (← current).kind
          modify fun s => { s with exportFault := some (.unexpectedKind kind) }
        else
          evaluateExports content
          exportsEnd) fun _ s => Settled s.stated := by
      split
      · exact (Keeps.current.ensures (· = (none,none))).bind fun t => hfault _
      · exact (evaluateExports_settled content).bind fun _ => exportsEnd_settled
    dsimp only
    split
    · exact ((Keeps.consume _).ensures (· = (none,none))).bind fun _ => hclosed
    · exact hclosed

theorem exportedNames_settled [Resources] :
    Ensures (fun s => s.stated = (none,none)) exportedNames fun _ s => Settled s.stated := by
  refine ((Keeps.consume _).ensures (· = (none,none))).bind fun _ =>
    (Keeps.current.ensures (· = (none,none))).bind fun t => ?_
  dsimp only
  split
  · exact ((Keeps.consume _).ensures (· = (none,none))).bind fun _ => exportedContent_settled _
  · exact exportedContent_settled _

/-- The first statement settles what the exported names are. A later one refuses to, in any shape. -/
theorem exportStatement_stated [Resources] (x : Option Exports × Option ExportFault) :
    Ensures (fun s => s.stated = x) exportStatement fun _ s =>
      if x = (none,none) then Settled s.stated else Refused s.stated := by
  refine (Keeps.current.ensures (· = x)).bind fun t => ?_
  split
  · exact Ensures.throw_bind
  refine ((Keeps.consume _).ensures (· = x)).bind fun _ => Ensures.get_bind fun s hs => ?_
  by_cases hx : x = (none,none)
  · have hnone : s.exports = none ∧ s.exportFault = none := Prod.mk.inj (hs.trans hx)
    simp only [hx,hnone,Option.isSome_none,Bool.or_false,Bool.false_eq_true,if_false,if_true]
    refine ((Keeps.current.ensures (· = (none,none))).bind fun t => ?_).imp
      (fun _ h => h ▸ hs.trans hx) fun _ _ h => h
    split
    · exact Ensures.modify fun s hs => .inr ⟨(Prod.mk.inj hs).1,rfl⟩
    · exact exportedNames_settled
  · have hsome : (s.exports.isSome || s.exportFault.isSome) = true := by
      rw [← hs] at hx
      cases he : s.exports with
      | some e => rfl
      | none =>
        cases hf : s.exportFault with
        | some f => rfl
        | none => exact absurd (by rw [State.stated,he,hf]) hx
    simp only [hsome,hx,if_true,if_false]
    exact refuseExports_refused _

/-! ### Along a run -/

def Stage : Nat → Option Exports × Option ExportFault → Prop
  | 0, x => x = (none,none)
  | 1, x => Settled x
  | _ + 2, x => Refused x

theorem Stage.next {x y : Option Exports × Option ExportFault} (h : Stage k x)
    (hy : if x = (none,none) then Settled y else Refused y) : Stage (k + 1) y := by
  match k,h with
  | 0,h =>
    have heq : x = (none,none) := h
    rw [if_pos heq] at hy
    exact hy
  | 1,h =>
    have hne : x ≠ (none,none) := by
      rintro rfl
      simp [Stage,Settled] at h
    rw [if_neg hne] at hy
    exact hy
  | k + 2,h =>
    have hne : x ≠ (none,none) := by
      rintro rfl
      simp [Stage,Refused] at h
    rw [if_neg hne] at hy
    exact hy

theorem moduleTurn_keeps [Resources] (h : t.value ≠ exportName) : Keeps (moduleTurn t) :=
  Keeps.get.bind fun _ => (Keeps.note _).bind fun _ =>
    turnAt_keeps definitions_keeps (by simp [h])

theorem moduleTurn_stated [Resources] (h : t.value = exportName) (x : Option Exports × Option ExportFault) :
    Ensures (fun s => s.stated = x) (moduleTurn t) fun _ s =>
      if x = (none,none) then Settled s.stated else Refused s.stated := by
  refine (Keeps.get.ensures (· = x)).bind fun _ => ((Keeps.note _).ensures (· = x)).bind fun _ => ?_
  simp only [turnAt,h,beq_self_eq_true,Bool.and_self,if_true]
  exact (exportStatement_stated x).bind fun _ => Ensures.pure fun _ hs => hs

theorem Turns.stage [Resources] (h : Turns j s s') (hk : Stage k s.stated) : Stage (k + j) s'.stated := by
  induction h with
  | none => exact hk
  | @next j s s₁ s₂ t found before current turned ih =>
    by_cases ht : t.value = exportName
    · have hstated := moduleTurn_stated ht _ s₁ _ s₂ rfl turned
      rw [statements,if_pos (by simp [ht])]
      exact (ih hk).next hstated
    · rw [statements,if_neg (by simp [ht]),(moduleTurn_keeps ht).stated_eq turned]
      exact ih hk

theorem Turns.stated_eq [Resources] (h : Turns j s s') (hj : j = 0) : s'.stated = s.stated := by
  induction h with
  | none => rfl
  | @next j s s₁ s₂ t found before current turned ih =>
    have ht : t.value ≠ exportName := by
      intro ht
      simp [statements,ht] at hj
    exact ((moduleTurn_keeps ht).stated_eq turned).trans (ih (by omega))

theorem moduleOpening_keeps : Keeps moduleOpening :=
  (Keeps.note _).bind fun _ => Keeps.line.bind fun _ => skipComment_keeps.bind fun _ =>
    docstring_keeps.bind fun _ => Keeps.pure

theorem Reaches.stage [Resources] (h : Reaches ts k s) : Stage k s.stated := by
  obtain ⟨s₀,opened,s₁,hs₀,hopened,hturns⟩ := h
  have hstart : s₀.stated = (none,none) := by
    cases ts with
    | nil => cases hs₀
    | cons t ts => cases hs₀; rfl
  have hs₁ : Stage 0 s₁.stated := (moduleOpening_keeps.stated_eq hopened).trans hstart
  simpa only [Nat.zero_add] using hturns.stage hs₁

theorem Turns.refused [Resources] (h : Turns j s s') (hs : Refused s.stated) : Refused s'.stated := by
  have hstage := h.stage (k := 2) hs
  rwa [Nat.add_comm] at hstage

theorem moduleTurn_last [Resources] {last : List Definition} (h : moduleTurn t s = .ok (last,false) s') :
    s'.stated = s.stated := by
  by_cases ht : t.value = exportName
  · obtain ⟨_,s₁,_,h⟩ := bind_eq_ok h
    obtain ⟨_,s₂,_,h⟩ := bind_eq_ok h
    simp only [turnAt,ht,beq_self_eq_true,Bool.and_self,if_true] at h
    obtain ⟨_,s₃,_,h⟩ := bind_eq_ok h
    cases h
  · exact (moduleTurn_keeps ht).stated_eq h

theorem Stage.not_both {x : Option Exports × Option ExportFault} (h : Stage k x) :
    x.1 = none ∨ x.2 = none := by
  match k,h with
  | 0,h => exact .inl (by rw [h])
  | 1,h =>
    rcases h with ⟨-,h⟩ | ⟨h,-⟩
    · exact .inr h
    · exact .inl h
  | _ + 2,h => exact .inl h.1

theorem moduleParts_stated [Resources] {name : Text} {source : List Text} {m : Module}
    (h : module name source s = .ok m s') :
    ∃ parts s₁, moduleParts s = .ok parts s₁ ∧ (m.exports,m.exportFault) = s₁.stated := by
  rw [module_run] at h
  cases hparts : moduleParts s with
  | error f s₁ => simp [hparts] at h
  | ok parts s₁ =>
    simp only [hparts] at h
    split at h
    · cases h
      exact ⟨parts,s₁,rfl,rfl⟩
    · cases h

/-- What a module says of its exported names is what is known at the last point behind each other. -/
theorem Reaches.module_stated [Resources] {name : Text} {source : List Text} {m : Module} {s₀ : State}
    (hs : Reaches ts k s) (hs₀ : State.ofTokens? ts = some s₀) (h : module name source s₀ = .ok m s') :
    ∃ j s₁, Turns j s s₁ ∧ (m.exports,m.exportFault) = s₁.stated := by
  obtain ⟨parts,s₂,hparts,hstated⟩ := moduleParts_stated h
  obtain ⟨n,hat⟩ := hs.exists_at
  obtain ⟨s₀',start,skipped,doc,found,hs₀',hresume⟩ := hs.resume
  cases hs₀.symm.trans hs₀'
  rw [hresume] at hparts
  obtain ⟨more,s₃,hmore,hparts⟩ := bind_eq_ok hparts
  cases hparts
  obtain ⟨j,s₁,hturns,hend⟩ := definitions_turns hat hmore
  refine ⟨j,s₁,hturns,hstated.trans ?_⟩
  rcases hend with rfl | ⟨t,last,-,hlast⟩
  · rfl
  · exact moduleTurn_last hlast

theorem module_stated [Resources] {name : Text} {source : List Text} {m : Module} {s₀ : State}
    (hs₀ : State.ofTokens? ts = some s₀) (h : module name source s₀ = .ok m s') :
    ∃ k s, Reaches ts k s ∧ (m.exports,m.exportFault) = s.stated := by
  obtain ⟨parts,s₂,hparts,-⟩ := moduleParts_stated h
  rw [moduleParts_eq] at hparts
  obtain ⟨opened,s₁,hopened,-⟩ := bind_eq_ok hparts
  have hreach : Reaches ts 0 s₁ := ⟨s₀,opened,s₁,hs₀,hopened,.none⟩
  obtain ⟨j,s,hturns,heq⟩ := hreach.module_stated hs₀ h
  exact ⟨0 + j,s,hreach.turns hturns,heq⟩

/-- At each point of a run, before the first statement about the exported names nothing is known of them,
behind it either their value or a fault is, and behind a second one a fault for good. A module tells what
is known at the last point. -/
theorem exports_stages [Resources] (ts : List Token) :
    (∀ k s, Reaches ts k s →
      (∃ s₀ start skipped doc found, State.ofTokens? ts = some s₀ ∧ moduleParts s₀ =
        (do return (start, skipped, doc, found ++ (← definitions .module true))) s) ∧
      (k = 0 → s.exports = none ∧ s.exportFault = none) ∧
      (k = 1 → (s.exports.isSome = true ∧ s.exportFault = none) ∨
        (s.exports = none ∧ s.exportFault.isSome = true)) ∧
      (2 ≤ k → s.exports = none ∧ s.exportFault.isSome = true) ∧
      (s.exports = none ∨ s.exportFault = none) ∧
      (s.exportFault.isSome = true → ∀ j s', Turns j s s' →
        s'.exports = none ∧ s'.exportFault.isSome = true)) ∧
    ∀ name source s₀ m s', State.ofTokens? ts = some s₀ → module name source s₀ = .ok m s' →
      ∃ k s, Reaches ts k s ∧ m.exports = s.exports ∧ m.exportFault = s.exportFault := by
  constructor
  · intro k s hs
    have hstage := hs.stage
    have hboth : s.exports = none ∨ s.exportFault = none := hstage.not_both
    refine ⟨hs.resume,?_,?_,?_,hboth,?_⟩
    · rintro rfl
      exact Prod.mk.inj hstage
    · rintro rfl
      exact hstage
    · intro hk
      obtain ⟨k,rfl⟩ := Nat.exists_eq_add_of_le' hk
      exact hstage
    · intro hfault j s' hturns
      have hnone : s.exports = none := hboth.resolve_right (by rintro h; simp [h] at hfault)
      exact hturns.refused ⟨hnone,hfault⟩
  · intro name source s₀ m s' hs₀ h
    obtain ⟨k,s,hs,heq⟩ := module_stated hs₀ h
    exact ⟨k,s,hs,(Prod.mk.inj heq).1,(Prod.mk.inj heq).2⟩

/-- The point so many turns on, or the last one before, with the number of statements up to it. -/
def pointAfter [Resources] : Nat → State → Nat × State
  | 0, s => (0, s)
  | n + 1, s => match s.rest.head? with
    | none => (0, s)
    | some t => match moduleTurn t s with
      | .ok (_, true) s₁ => (statements t + (pointAfter n s₁).1, (pointAfter n s₁).2)
      | _ => (0, s)

theorem pointAfter_turns [Resources] (n : Nat) (s : State) : Turns (pointAfter n s).1 s (pointAfter n s).2 := by
  fun_induction pointAfter n s with
  | case1 s => exact .none
  | case2 n s hnil => exact .none
  | case3 n s t ht found s₁ hturn ih => exact (Turns.single ht hturn).trans ih
  | case4 n s t ht hturn => exact .none

theorem exists_reaches [Resources] {n : Nat} {p : State → Bool}
    (h : readsTo ts moduleOpening (fun _ s => (pointAfter n s).1 == k && p (pointAfter n s).2) = true) :
    ∃ s, Reaches ts k s ∧ p s = true := by
  obtain ⟨s₀,opened,s₁,hs₀,hopened,hpoint⟩ := exists_of_readsTo h
  rw [Bool.and_eq_true,beq_iff_eq] at hpoint
  exact ⟨_,⟨s₀,opened,s₁,hs₀,hopened,hpoint.1 ▸ pointAfter_turns n s₁⟩,hpoint.2⟩

/-- The exported names are stated as a whole, inside a block, where it does not count, and once more. -/
def restated : Text :=
  "__all__ = ('f', 'g')\nif x:\n    __all__ = y\n__all__ += ['h']\n"

open Resources.Builtin

theorem exports_stages_restated :
    (∃ s, Reaches (Scan.ofText restated).tokens 1 s ∧
      ((s.exports.isSome = true ∧ s.exportFault = none) ∨
        (s.exports = none ∧ s.exportFault.isSome = true))) ∧
    (∃ s, Reaches (Scan.ofText restated).tokens 2 s ∧ s.exports = none ∧ s.exportFault.isSome = true) ∧
    ∃ s₀ m s', State.ofTokens? (Scan.ofText restated).tokens = some s₀ ∧
      module "m" restated.lines s₀ = .ok m s' ∧
      ∃ k s, Reaches (Scan.ofText restated).tokens k s ∧ m.exports = s.exports ∧
        m.exportFault = s.exportFault := by
  obtain ⟨hpoint,hmodule⟩ := exports_stages (Scan.ofText restated).tokens
  obtain ⟨s,hs,-⟩ : ∃ s, Reaches (Scan.ofText restated).tokens 1 s ∧ true = true :=
    exists_reaches (n := 4) (by decide +kernel)
  obtain ⟨s',hs',-⟩ : ∃ s, Reaches (Scan.ofText restated).tokens 2 s ∧ true = true :=
    exists_reaches (n := 12) (by decide +kernel)
  have hreads : readsTo (Scan.ofText restated).tokens (module "m" restated.lines)
      (fun _ _ => true) = true := by decide +kernel
  obtain ⟨s₀,m,s₂,hs₀,hm,-⟩ := exists_of_readsTo hreads
  exact ⟨⟨s,hs,(hpoint 1 s hs).2.2.1 rfl⟩,⟨s',hs',(hpoint 2 s' hs').2.2.2.1 (Nat.le_refl 2)⟩,
    s₀,m,s₂,hs₀,hm,hmodule _ _ s₀ m s₂ hs₀ hm⟩

end DocLint.Outline
