import DocLint.Proofs.Outline.Asides
import DocLint.Proofs.Outline.Counterparts

/-!
Notes are kept, and every docstring that is brought home has been noted with the token from which it is read.
-/

set_option autoImplicit false

namespace DocLint.Outline

variable {α β : Type} {r : Reader α} {nested : Region → Reader (List Definition)}
  {next : Region → Bool → Reader (List Definition)}

/-- The notes tell of the token of a docstring. -/
def Heard (notes : List Note) (d : Option Docstring) : Prop :=
  ∀ x, d = some x → ∃ t, Note.docstring (some t) ∈ notes ∧ docstringOf t = some x

/-- The notes tell of the docstrings of definitions, wherever these stand. -/
def HeardAll (notes : List Note) (ds : List Definition) : Prop :=
  ∀ m ancestors, ∀ s ∈ childSubjects m ancestors ds, Heard notes s.docstring

/-- A reader that keeps the notes, which tell of what it brings home. -/
def Tells (R : List Note → α → Prop) (r : Reader α) : Prop :=
  ∀ s a s', r s = .ok a s' → s.notes ⊆ s'.notes ∧ R s'.notes a

theorem Heard.mono {ns ns' : List Note} {d : Option Docstring} (h : ns ⊆ ns') (hd : Heard ns d) : Heard ns' d := by
  intro x hx
  obtain ⟨t,ht,hdoc⟩ := hd x hx
  exact ⟨t,h ht,hdoc⟩

namespace HeardAll

variable {ns ns' : List Note} {ds es : List Definition} {d : Definition}

theorem mono (h : ns ⊆ ns') (hds : HeardAll ns ds) : HeardAll ns' ds :=
  fun m ancestors s hs => (hds m ancestors s hs).mono h

theorem nil : HeardAll ns [] := fun _ _ _ hs => by cases hs

theorem append (h : HeardAll ns ds) (h' : HeardAll ns es) : HeardAll ns (ds ++ es) := by
  intro m ancestors s hs
  rw [childSubjects_append] at hs
  exact (List.mem_append.mp hs).elim (h m ancestors s) (h' m ancestors s)

theorem single (hdoc : Heard ns d.docstring) (hchildren : HeardAll ns d.children) : HeardAll ns [d] := by
  intro m ancestors s hs
  rw [childSubjects,Definition.subjects_eq,childSubjects,List.append_nil] at hs
  rcases List.mem_cons.mp hs with rfl | hs
  · exact hdoc
  · exact hchildren _ _ s hs

end HeardAll

namespace Tells

variable {R : List Note → α → Prop} {Q : List Note → β → Prop} {f : α → Reader β}

theorem pure {a : α} (h : ∀ ns, R ns a) : Tells R (pure a) := by
  rintro s _ _ ⟨⟩
  exact ⟨List.Subset.refl _,h _⟩

theorem bind (hr : Tells R r) (hR : ∀ a ns ns', ns ⊆ ns' → R ns a → R ns' a)
    (hf : ∀ a, Tells (fun ns b => R ns a → Q ns b) (f a)) : Tells Q (r >>= f) := by
  intro s b s' hrun
  obtain ⟨a,s₁,ha,hrun⟩ := bind_eq_ok hrun
  obtain ⟨hkept,hR₁⟩ := hr s a s₁ ha
  obtain ⟨hkept',hQ⟩ := hf a s₁ b s' hrun
  exact ⟨List.Subset.trans hkept hkept',hQ (hR a _ _ hkept' hR₁)⟩

theorem imp {R' : List Note → α → Prop} (h : Tells R r) (himp : ∀ ns a, R ns a → R' ns a) : Tells R' r :=
  fun s a s' hrun => (h s a s' hrun).imp_right (himp _ _)

/-- Behind a reader whose result is not told of. -/
theorem after (hr : Tells (fun _ _ => True) r) (hf : ∀ a, Tells Q (f a)) : Tells Q (r >>= f) :=
  hr.bind (fun _ _ _ _ _ => trivial) fun a => (hf a).imp fun _ _ h _ => h

theorem throw_bind {e : Fault} : Tells Q ((throw e : Reader α) >>= f) := by
  intro s b s' hrun
  obtain ⟨_,_,hthrown,_⟩ := bind_eq_ok hrun
  cases hthrown

end Tells

theorem Hushed.tells (h : Hushed r) : Tells (fun _ _ => True) r := by
  intro s a s' hrun
  obtain ⟨log,hlog,-⟩ := h s
  rw [hrun] at hlog
  exact ⟨fun e he => hlog ▸ List.mem_append_right log he,trivial⟩

theorem note_tells (e : Note) : Tells (fun _ _ => True) (note e) := by
  rintro s _ _ ⟨⟩
  exact ⟨List.subset_cons_self e _,trivial⟩

theorem docstring_tells : Tells Heard docstring := by
  intro s d s' hrun
  refine ⟨(docstring_hushed.tells s d s' hrun).1,?_⟩
  have hloop : Ensures (fun s => Note.docstring s.rest.head? ∈ s.notes) (loop docstringStep ())
      fun d s => Heard s.notes d := by
    refine Ensures.loop (I := fun _ s => Note.docstring s.rest.head? ∈ s.notes) (fun _ s v s₁ hs hstep => ?_) ()
    rw [docstringStep_run] at hstep
    dsimp only at hs
    cases hrest : s.rest with
    | nil =>
      rw [hrest] at hstep
      cases hstep
    | cons u us =>
      rw [hrest] at hstep hs
      dsimp only at hstep
      split at hstep
      · cases us with
        | nil => cases hstep
        | cons w ws =>
          cases hstep
          exact List.mem_cons_self
      · split at hstep
        · cases hstep
          exact fun x hx => ⟨u,hs,hx⟩
        · cases hstep
          rintro _ ⟨⟩
  exact hloop { s with notes := .docstring s.rest.head? :: s.notes } d s' List.mem_cons_self hrun

theorem definitionWith_tells (kind : DefinitionKind) (hnested : ∀ r, Tells HeardAll (nested r)) :
    Tells (fun ns d => HeardAll ns [d]) (definitionWith nested kind) := by
  have hdone (name : Text) (d : Definition) :
      Tells (fun ns d' => HeardAll ns [d] → HeardAll ns [d']) (do
        note (.definitionDone kind name (← current?))
        return d) :=
    Hushed.current?.tells.after fun u => (note_tells _).after fun _ => Tells.pure fun _ h => h
  unfold definitionWith
  refine Hushed.line.tells.after fun start => (Hushed.consume _).tells.after fun _ =>
    Hushed.current.tells.after fun u => (note_tells _).after fun _ => Hushed.move.tells.after fun _ =>
    headerEnd_hushed.tells.after fun _ => Hushed.current.tells.after fun first => ?_
  dsimp only
  split
  · refine skipComment_hushed.tells.after fun skipped => (leapfrog_hushed _ _).tells.after fun _ =>
      Hushed.current.tells.after fun w => ?_
    split
    · exact Tells.throw_bind
    · refine docstring_tells.bind (fun _ _ _ h => Heard.mono h) fun doc => takePending_hushed.tells.after fun ds =>
        (note_tells _).after fun _ => (hnested _).bind (fun _ _ _ h => HeardAll.mono h) fun children =>
        (note_tells _).after fun _ => Hushed.line.tells.after fun stop => ?_
      exact (hdone _ _).imp fun ns d h hchildren hdoc => h (HeardAll.single hdoc hchildren)
  · refine docstring_tells.bind (fun _ _ _ h => Heard.mono h) fun doc => takePending_hushed.tells.after fun ds =>
      Hushed.line.tells.after fun stop => (leapfrog_hushed _ _).tells.after fun _ => ?_
    exact (hdone _ _).imp fun ns d h hdoc => h (HeardAll.single hdoc HeardAll.nil)

theorem decorators_tells : Tells (fun _ _ => True) decorators := by
  have hadd (d : Decorator) : Tells (fun _ _ => True) (addDecorator d) := by
    rintro s _ _ ⟨⟩
    exact ⟨List.Subset.refl _,trivial⟩
  have hstep (d : OpenDecorator) : Tells (fun _ _ => True) (decoratorStep d) := by
    refine Hushed.current?.tells.after fun u => ?_
    cases u with
    | none => exact (hadd _).after fun _ => Tells.pure fun _ => trivial
    | some u =>
      refine (note_tells _).after fun _ => ?_
      split
      · exact (hadd _).after fun _ => Tells.pure fun _ => trivial
      · split
        · exact (hadd _).after fun _ => Hushed.move.tells.after fun _ => Tells.pure fun _ => trivial
        · exact Hushed.move.tells.after fun _ => Tells.pure fun _ => trivial
  intro s a s' hrun
  have hloop : Ensures (s.notes ⊆ ·.notes) decorators fun _ s' => s.notes ⊆ s'.notes := by
    unfold decorators
    refine Ensures.loop (I := fun _ s' => s.notes ⊆ s'.notes) (fun d s₁ v s₂ hs₁ hrun => ?_) _
    have hkept := List.Subset.trans hs₁ (hstep d s₁ v s₂ hrun).1
    cases v <;> exact hkept
  exact ⟨hloop s a s' (List.Subset.refl _) hrun,trivial⟩

theorem definitionsAt_tells [Resources] (hnext : ∀ r e, Tells HeardAll (next r e)) (region : Region)
    (exporting fresh : Bool) (u : Token) : Tells HeardAll (definitionsAt next region exporting fresh u) := by
  have hmore (ds : List Definition) {region : Region} {exporting : Bool} :
      Tells (fun ns es => HeardAll ns ds → HeardAll ns es) (do return ds ++ (← next region exporting)) :=
    (hnext region exporting).bind (fun _ _ _ h => HeardAll.mono h) fun es =>
      Tells.pure fun _ hes hds => hds.append hes
  unfold definitionsAt
  split
  · exact exportStatement_hushed.tells.after fun _ => hnext region exporting
  · split
    · exact (Hushed.consume _).tells.after fun _ => decorators_tells.after fun _ => hnext region exporting
    · split
      · exact (definitionWith_tells _ fun r => hnext r false).bind (fun _ _ _ h => HeardAll.mono h) fun d => hmore [d]
      · split
        · exact (Hushed.consume _).tells.after fun _ => (hnext region false).bind (fun _ _ _ h => HeardAll.mono h)
            fun ds => hmore ds
        · split
          · exact (Hushed.consume _).tells.after fun _ => Tells.pure fun _ => HeardAll.nil
          · split
            · exact fromImport_hushed.tells.after fun _ => hnext region exporting
            · exact Hushed.move.tells.after fun _ => hnext region exporting

theorem definitionsWithin_tells [Resources] (fuel : Nat) (region : Region) (exporting : Bool) :
    Tells HeardAll (definitionsWithin fuel region exporting) := by
  induction fuel generalizing region exporting with
  | zero => rintro _ _ _ ⟨⟩
  | succ fuel ih =>
    refine Hushed.current?.tells.after fun u => ?_
    cases u with
    | none => exact Tells.pure fun _ => HeardAll.nil
    | some u =>
      exact Hushed.get.tells.after fun s => (note_tells _).after fun _ => definitionsAt_tells ih region exporting _ u

/-- What is read of a module has its docstrings from tokens that are noted. -/
theorem module_tells [Resources] (file : Text) (lines : List Text) :
    Tells (fun ns m => ∀ s ∈ m.subjects, Heard ns s.docstring) (Outline.module file lines) := by
  have hdefinitions : Tells HeardAll (definitions .module true) :=
    Hushed.get.tells.after fun s => definitionsWithin_tells _ _ _
  refine (note_tells _).after fun _ => Hushed.line.tells.after fun start => skipComment_hushed.tells.after fun skipped =>
    docstring_tells.bind (fun _ _ _ h => Heard.mono h) fun doc => hdefinitions.bind (fun _ _ _ h => HeardAll.mono h)
    fun children => Hushed.current?.tells.after fun u => ?_
  split
  · exact Tells.throw_bind
  · refine Hushed.get.tells.after fun s => (note_tells _).after fun _ => Tells.pure fun ns hchildren hdoc x hx => ?_
    rcases List.mem_cons.mp hx with rfl | hx
    · exact hdoc
    · exact hchildren _ _ x hx

end DocLint.Outline
