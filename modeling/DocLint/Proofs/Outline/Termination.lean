import DocLint.Proofs.Outline.Gathering

/-!
Reading comes to an end. A step of a loop that goes on leaves fewer tokens than it found, and so does
whatever is read before the reader of definitions goes on; the bounds on the number of steps are
never reached, and no result depends on them.
-/

set_option autoImplicit false

namespace DocLint.Outline

variable {α β : Type} {ts : List Token} {n : Nat} {t : Token}

/-! ### Loops -/

def Shrinks (step : α → Reader (α ⊕ β)) : Prop :=
  ∀ (ts : List Token) (n : Nat) (s s' : State) (a a' : α), At ts n s →
    step a s = .ok (.inl a') s' → s'.rest.length < s.rest.length

theorem Shrinks.of_moves {step : α → Reader (α ⊕ β)}
    (h : ∀ ts n a, ∃ Q, Moves ts n (step a) Q ∧ ∀ a' m, Q (.inl a') m → n < m) : Shrinks step := by
  intro ts n s s' a a' hs hrun
  obtain ⟨Q,hmoves,hQ⟩ := h ts n a
  obtain ⟨m,-,hs',hv⟩ := hmoves.ok hs hrun
  have hlt := hQ a' m hv
  have hle := hs'.le
  rw [hs.rest,hs'.rest,List.length_drop,List.length_drop]
  omega

theorem leapStep_shrinks (kind : TokenKind) (value : Option Text) : Shrinks (leapStep kind value) :=
  .of_moves fun _ n _ => ⟨_,leapStep_moves kind value (Through.empty (Nat.le_refl n)) (Nat.le_refl n),
    fun _ _ h => h.1⟩

theorem skipStep_shrinks : Shrinks skipStep :=
  .of_moves fun _ n _ => ⟨_,skipStep_moves (Through.empty (Nat.le_refl n)),fun _ _ h => h.1⟩

theorem docstringStep_shrinks : Shrinks docstringStep :=
  .of_moves fun _ n _ => ⟨_,docstringStep_moves (Through.empty (Nat.le_refl n)) (Nat.le_refl n),
    fun _ _ h => h.1⟩

theorem decoratorStep_shrinks : Shrinks decoratorStep :=
  .of_moves fun _ n d => ⟨_,decoratorStep_moves d (Through.empty (Nat.le_refl n)),fun _ _ h => h.1⟩

theorem exportContentStep_shrinks (surrounded : Bool) : Shrinks (exportContentStep surrounded) :=
  .of_moves fun _ n content => ⟨_,exportContentStep_moves surrounded content (Through.empty (Nat.le_refl n)),
    fun _ _ h => h.1⟩

theorem exportsEndStep_shrinks : Shrinks exportsEndStep :=
  .of_moves fun _ n _ => ⟨_,exportsEndStep_moves (Through.empty (Nat.le_refl n)),fun _ _ h => h.1⟩

theorem importSourceStep_shrinks (isFeature : Bool) : Shrinks (importSourceStep isFeature) :=
  .of_moves fun _ n _ => ⟨_,importSourceStep_moves isFeature (Through.empty (Nat.le_refl n)),
    fun _ _ h => h.1⟩

theorem importedNamesStep_shrinks (isFeature bracketed : Bool) :
    Shrinks (importedNamesStep isFeature bracketed) :=
  .of_moves fun _ n _ => ⟨_,importedNamesStep_moves isFeature bracketed (Through.empty (Nat.le_refl n)),
    fun _ _ h => h.1⟩

theorem parameterStep_shrinks : Shrinks parameterStep := by
  refine .of_moves fun ts n level =>
    ⟨fun v m => v.elim (fun _ => n < m) fun _ => True,?_,fun _ _ h => h⟩
  refine Moves.current_bind fun t _ => ?_
  split
  · exact Moves.pure trivial
  · exact Moves.move_bind fun _ _ => Moves.pure (Nat.lt_succ_self n)

/-! ### Definitions -/

def Agree (ts : List Token) (n : Nat) (r r' : Reader α) : Prop := ∀ s, At ts n s → r s = r' s

namespace Agree

variable {r r' : Reader α} {f f' : α → Reader β} {Q : α → Nat → Prop}

theorem refl (r : Reader α) : Agree ts n r r := fun _ _ => rfl

theorem bind_right (hr : Moves ts n r Q) (hf : ∀ v m, n ≤ m → Q v m → Agree ts m (f v) (f' v)) :
    Agree ts n (r >>= f) (r >>= f') := by
  intro s hs
  change EStateM.bind r f s = EStateM.bind r f' s
  cases hrs : r s with
  | error e s' => simp only [EStateM.bind,hrs]
  | ok v s' =>
    obtain ⟨m,hm,hs',hv⟩ := hr.ok hs hrs
    simp only [EStateM.bind,hrs]
    exact hf v m hm hv s' hs'

theorem bind_left (h : Agree ts n r r') : Agree ts n (r >>= f) (r' >>= f) := by
  intro s hs
  change EStateM.bind r f s = EStateM.bind r' f s
  simp only [EStateM.bind,h s hs]

theorem bind (hr : Moves ts n r Q) (h : Agree ts n r r')
    (hf : ∀ v m, n ≤ m → Q v m → Agree ts m (f v) (f' v)) : Agree ts n (r >>= f) (r' >>= f') :=
  fun s hs => (bind_right hr hf s hs).trans (bind_left h s hs)

theorem get_bind {f f' : State → Reader β} (hf : ∀ s, Agree ts n (f s) (f' s)) :
    Agree ts n (get >>= f) (get >>= f') := fun s hs => hf s s hs

theorem current?_bind {f f' : Option Token → Reader β} (hf : Agree ts n (f ts[n]?) (f' ts[n]?)) :
    Agree ts n (current? >>= f) (current? >>= f') := by
  intro s hs
  rw [← hs.head?] at hf
  exact hf s hs

theorem line_bind {f f' : Nat → Reader β} (hf : ∀ v, Agree ts n (f v) (f' v)) :
    Agree ts n (line >>= f) (line >>= f') := fun s hs => hf s.line s hs

theorem note_bind {e : Note} {f f' : Unit → Reader β} (hf : Agree ts n (f ()) (f' ())) :
    Agree ts n (note e >>= f) (note e >>= f') :=
  fun s hs => hf { s with notes := e :: s.notes } (hs.of_cursor rfl rfl rfl)

end Agree

variable {kind : DefinitionKind} {nested nested' : Region → Reader (List Definition)}
  {next next' : Region → Bool → Reader (List Definition)} {region : Region} {exporting fresh : Bool}

theorem definitionWith_agree
    (h : ∀ k, n < k → Agree ts k (nested (.within kind)) (nested' (.within kind))) :
    Agree ts n (definitionWith nested kind) (definitionWith nested' kind) := by
  refine Agree.line_bind fun start => ?_
  refine Agree.bind_right (Moves.consume (Q := fun _ m => n < m) fun _ _ _ => Nat.lt_succ_self n) ?_
  intro _ i _ hi
  refine Agree.bind_right Moves.current fun name i₁ h₁ _ => Agree.note_bind ?_
  refine Agree.bind_right Moves.move fun _ i₂ h₂ _ => ?_
  refine Agree.bind_right headerEnd_moves fun _ i₃ h₃ _ => ?_
  refine Agree.bind_right Moves.current fun first i₄ h₄ _ => ?_
  dsimp only
  split
  · refine Agree.bind_right skipComment_moves fun _ i₅ h₅ _ => ?_
    refine Agree.bind_right (leapfrog_moves _ _) fun _ i₆ h₆ _ => ?_
    refine Agree.bind_right Moves.current fun _ i₇ h₇ _ => ?_
    split
    · exact Agree.refl _
    · refine Agree.bind_right docstring_moves fun _ i₈ h₈ _ => ?_
      refine Agree.bind_right takePending_moves fun _ i₉ h₉ _ => Agree.note_bind ?_
      exact Agree.bind_left (h i₉ (by omega))
  · exact Agree.refl _

theorem definitionsAt_agree [Resources] (ht : ts[n]? = some t)
    (hmoves : ∀ k, n < k → ∀ region exporting, Moves ts k (next region exporting) (Gathers ts k))
    (h : ∀ k, n < k → ∀ region exporting, Agree ts k (next region exporting) (next' region exporting)) :
    Agree ts n (definitionsAt next region exporting fresh t)
      (definitionsAt next' region exporting fresh t) := by
  unfold definitionsAt
  split
  · exact Agree.bind_right exportStatement_moves fun _ k _ hk => h k hk.2.1 _ _
  · split
    · refine Agree.bind_right (Moves.consume (Q := fun _ m => n < m) fun _ _ _ => Nat.lt_succ_self n) ?_
      intro _ i _ hi
      exact Agree.bind_right decorators_moves fun _ k hk _ => h k (by omega) _ _
    · split
      · rename_i hword
        refine Agree.bind (definitionWith_moves ⟨t,ht,hword⟩ fun k hk => hmoves k hk _ false)
          (definitionWith_agree fun k hk => h k hk _ false) fun d k _ hk => ?_
        exact Agree.bind_left (h k hk.1 _ _)
      · split
        · refine Agree.bind_right (Moves.consume (Q := fun _ m => n < m) fun _ _ _ => Nat.lt_succ_self n) ?_
          intro _ i _ hi
          refine Agree.bind (hmoves i hi _ _) (h i hi _ _) fun inner k hk _ => ?_
          exact Agree.bind_left (h k (by omega) _ _)
        · split
          · exact Agree.refl _
          · split
            · refine Agree.bind_right (Q := fun _ m => n < m) ?_ fun _ k _ hk => h k hk _ _
              refine Moves.note_bind (Moves.bind importSource_moves fun _ k _ hk => ?_)
              exact (importedNames_moves _).imp fun _ m hm _ => by omega
            · exact Agree.bind_right Moves.move fun _ k _ hk => h k (by omega) _ _

/-- How often the reader of definitions may go on makes no difference, if it is more often than there are
tokens left. -/
theorem definitionsWithin_agree [Resources] {fuel fuel' : Nat} (h : ts.length - n < fuel) (h' : ts.length - n < fuel') :
    Agree ts n (definitionsWithin fuel region exporting) (definitionsWithin fuel' region exporting) := by
  induction fuel generalizing n fuel' region exporting with
  | zero => omega
  | succ fuel ih =>
    cases fuel' with
    | zero => omega
    | succ fuel' =>
      refine Agree.current?_bind ?_
      cases ht : ts[n]? with
      | none => exact Agree.refl _
      | some t =>
        have hlt : n < ts.length := (List.getElem?_eq_some_iff.mp ht).1
        refine Agree.get_bind fun s => Agree.note_bind (definitionsAt_agree ht ?_ ?_)
        · exact fun k hk region exporting => definitionsWithin_moves fuel (by omega)
        · exact fun k hk region exporting => ih (by omega) (by omega)

/-- All reading ends: the steps of each loop take tokens, and no bound on their number is reached. -/
structure ReadingEnds [Resources] : Prop where
  leap : ∀ kind value, Shrinks (leapStep kind value)
  skip : Shrinks skipStep
  docstring : Shrinks docstringStep
  decorators : Shrinks decoratorStep
  exportContent : ∀ surrounded, Shrinks (exportContentStep surrounded)
  exportsEnd : Shrinks exportsEndStep
  importSource : ∀ isFeature, Shrinks (importSourceStep isFeature)
  importedNames : ∀ isFeature bracketed, Shrinks (importedNamesStep isFeature bracketed)
  parameters : Shrinks parameterStep
  definitions : ∀ ts n fuel fuel' region exporting, ts.length - n < fuel → ts.length - n < fuel' →
    Agree ts n (definitionsWithin fuel region exporting) (definitionsWithin fuel' region exporting)
  module : ∀ ts name source s s' f, State.ofTokens? ts = some s →
    Outline.module name source s = .error f s' → f ≠ .stalled

theorem readingEnds [Resources] : ReadingEnds where
  leap := leapStep_shrinks
  skip := skipStep_shrinks
  docstring := docstringStep_shrinks
  decorators := decoratorStep_shrinks
  exportContent := exportContentStep_shrinks
  exportsEnd := exportsEndStep_shrinks
  importSource := importSourceStep_shrinks
  importedNames := importedNamesStep_shrinks
  parameters := parameterStep_shrinks
  definitions _ _ _ _ _ _ h h' := definitionsWithin_agree h h'
  module _ name source _ _ _ hs hrun := (module_moves name source).error (State.ofTokens?_at hs) hrun

end DocLint.Outline
