import DocLint.Proofs.Outline.Turns

/-!
Notes that readers take aside. The readers around definitions, whether they end or fail, tell neither of a
turn at a token nor of decorators: only the reader of definitions and that of decorators do.
-/

set_option autoImplicit false

namespace DocLint.Outline

variable {α β : Type} {s : State}

def Note.isAside : Note → Bool
  | .definitions _ _ => false
  | .decorators _ => false
  | _ => true

def resultState : EStateM.Result Fault State α → State
  | .ok _ s => s
  | .error _ s => s

theorem bind_of_error {r : Reader α} {e : Fault} {s₁ : State} (f : α → Reader β) (h : r s = .error e s₁) :
    (r >>= f) s = .error e s₁ := by
  change EStateM.bind r f s = _
  simp only [EStateM.bind,h]

def Hushed (r : Reader α) : Prop :=
  ∀ s, ∃ log, (resultState (r s)).notes = log ++ s.notes ∧ ∀ e ∈ log, e.isAside = true

namespace Hushed

variable {r : Reader α}

theorem pure (a : α) : Hushed (pure a) := fun _ => ⟨[],rfl,by simp⟩

theorem throw (f : Fault) : Hushed (throw f : Reader α) := fun _ => ⟨[],rfl,by simp⟩

theorem bind {f : α → Reader β} (hr : Hushed r) (hf : ∀ a, Hushed (f a)) : Hushed (r >>= f) := by
  intro s
  obtain ⟨log,hlog,haside⟩ := hr s
  cases hrs : r s with
  | error e s₁ =>
    rw [hrs] at hlog
    exact ⟨log,by rw [bind_of_error f hrs]; exact hlog,haside⟩
  | ok a s₁ =>
    rw [hrs] at hlog
    obtain ⟨log',hlog',haside'⟩ := hf a s₁
    refine ⟨log' ++ log,?_,?_⟩
    · rw [bind_of_ok f hrs,hlog',List.append_assoc]
      exact congrArg (log' ++ ·) hlog
    · intro e he
      exact (List.mem_append.mp he).elim (haside' e) (haside e)

theorem get : Hushed (get : Reader State) := fun _ => ⟨[],rfl,by simp⟩

theorem modify {g : State → State} (hg : ∀ s, (g s).notes = s.notes) : Hushed (modify g) :=
  fun s => ⟨[],hg s,by simp⟩

theorem note {e : Note} (he : e.isAside = true) : Hushed (note e) := fun _ => ⟨[e],rfl,by simp [he]⟩

theorem line : Hushed line := bind get fun _ => pure _

theorem current? : Hushed current? := bind get fun _ => pure _

theorem current : Hushed current := by
  refine bind current? fun t => ?_
  cases t with
  | none => exact throw _
  | some t => exact pure t

theorem move : Hushed move := by
  intro s
  refine ⟨[],?_,by simp⟩
  rw [show Outline.move s = _ from bind_of_ok _ (rfl : (MonadState.get : Reader State) s = .ok s s)]
  cases s.rest with
  | nil => rfl
  | cons t ts => rfl

theorem consume (kind : TokenKind) : Hushed (consume kind) := by
  refine bind move fun t => ?_
  split
  · exact throw _
  · exact pure _

theorem loop {step : α → Reader (α ⊕ β)} (h : ∀ a, Hushed (step a)) (a : α) : Hushed (loop step a) := by
  suffices hrep : ∀ fuel a, Hushed (repeating step fuel a) from bind get fun _ => hrep _ a
  intro fuel
  induction fuel with
  | zero => exact fun _ => throw _
  | succ fuel ih =>
    refine fun a => bind (h a) fun v => ?_
    cases v with
    | inl a' => exact ih a'
    | inr b => exact pure b

theorem throw_bind {e : Fault} {f : α → Reader β} : Hushed ((MonadExcept.throw e : Reader α) >>= f) :=
  fun _ => ⟨[],rfl,by simp⟩

end Hushed

theorem leapfrog_hushed (kind : TokenKind) (value : Option Text) : Hushed (leapfrog kind value) := by
  refine Hushed.loop (fun _ => Hushed.current?.bind fun t => ?_) ()
  cases t with
  | none => exact Hushed.pure _
  | some t => exact Hushed.move.bind fun _ => Hushed.pure _

theorem filler_hushed {e : Token → Note} (he : ∀ t, (e t).isAside = true) (b : β) :
    Hushed (do
      let _ ← move
      note (e (← current))
      return b) :=
  Hushed.move.bind fun _ => Hushed.current.bind fun t => (Hushed.note (he t)).bind fun _ => Hushed.pure b

theorem skipComment_hushed : Hushed skipComment := by
  refine Hushed.loop (fun _ => Hushed.current.bind fun t => ?_) ()
  split
  · exact filler_hushed (fun _ => rfl) _
  · exact Hushed.pure _

theorem docstring_hushed : Hushed docstring := by
  refine Hushed.current?.bind fun _ => (Hushed.note rfl).bind fun _ => ?_
  refine Hushed.loop (fun _ => Hushed.current.bind fun t => ?_) ()
  split
  · exact filler_hushed (e := fun t => .docstring (some t)) (fun _ => rfl) _
  · split
    · exact Hushed.move.bind fun _ => Hushed.pure _
    · exact Hushed.pure _

theorem headerEnd_hushed : Hushed headerEnd := by
  have hcolon : Hushed (do
      if (← current).is .op ":" then consume .op else leapfrog .op (some ":")) := by
    refine Hushed.current.bind fun t => ?_
    split
    · exact Hushed.consume .op
    · exact leapfrog_hushed .op _
  refine Hushed.current.bind fun t => ?_
  split
  · refine (Hushed.loop (fun _ => Hushed.current.bind fun t => ?_) _).bind fun _ => hcolon
    split
    · exact Hushed.pure _
    · exact Hushed.move.bind fun _ => Hushed.pure _
  · exact hcolon

theorem takePending_hushed : Hushed takePending :=
  Hushed.get.bind fun _ => (Hushed.note rfl).bind fun _ =>
    Hushed.bind (Hushed.modify fun _ => rfl) fun _ => Hushed.pure _

theorem exportContent_hushed (surrounded : Bool) : Hushed (exportContent surrounded) := by
  refine Hushed.loop (fun content => Hushed.current.bind fun t => ?_) []
  split
  · exact Hushed.pure _
  · split
    · exact Hushed.pure _
    · split
      · exact Hushed.move.bind fun _ => Hushed.pure _
      · split
        · exact Hushed.move.bind fun _ => Hushed.pure _
        · exact Hushed.pure _

theorem exportsEnd_hushed : Hushed exportsEnd := by
  refine Hushed.loop (fun _ => Hushed.current.bind fun t => ?_) ()
  split
  · exact Hushed.pure _
  · split
    · exact Hushed.move.bind fun _ => Hushed.pure _
    · exact Hushed.bind (Hushed.modify fun _ => rfl) fun _ => Hushed.pure _

theorem exportedContent_hushed [Resources] (surrounded : Bool) : Hushed (exportedContent surrounded) := by
  have hrest (content : Text) : Hushed (if (!surrounded && !content.contains ',') = true then do
        let kind := (← current).kind
        modify fun s => { s with exportFault := some (.unexpectedKind kind) }
      else do
        evaluateExports content
        exportsEnd) := by
    split
    · exact Hushed.current.bind fun _ => Hushed.modify fun _ => rfl
    · exact (Hushed.modify fun s => by split <;> rfl).bind fun _ => exportsEnd_hushed
  refine (exportContent_hushed surrounded).bind fun v => ?_
  cases v with
  | none => exact Hushed.modify fun _ => rfl
  | some content =>
    cases surrounded with
    | false => exact hrest content
    | true => exact (Hushed.consume .op).bind fun _ => hrest content

theorem exportStatement_hushed [Resources] : Hushed exportStatement := by
  refine Hushed.current.bind fun t => ?_
  split
  · exact Hushed.throw_bind
  · refine (Hushed.consume .name).bind fun _ => Hushed.get.bind fun s => ?_
    split
    · exact Hushed.modify fun _ => rfl
    · refine Hushed.current.bind fun u => ?_
      split
      · exact Hushed.modify fun _ => rfl
      · refine (Hushed.consume .op).bind fun _ => Hushed.current.bind fun v => ?_
        dsimp only
        split
        · exact (Hushed.consume .op).bind fun _ => exportedContent_hushed _
        · exact exportedContent_hushed _

theorem importSource_hushed : Hushed importSource := by
  refine Hushed.current.bind fun t => ?_
  split
  · exact Hushed.throw_bind
  · refine Hushed.move.bind fun _ => Hushed.current.bind fun u => Hushed.move.bind fun _ => ?_
    refine Hushed.loop (fun _ => Hushed.current?.bind fun t => ?_) ()
    cases t with
    | none => exact Hushed.pure _
    | some t =>
      dsimp only
      split
      · exact Hushed.move.bind fun _ => Hushed.pure _
      · split
        · exact Hushed.move.bind fun _ => Hushed.pure _
        · exact Hushed.pure _

theorem importedName_hushed (isFeature : Bool) (u : Token) : Hushed (importedName isFeature u) := by
  have halias : Hushed importedAlias := by
    refine Hushed.current.bind fun t => ?_
    split
    · refine (Hushed.consume .name).bind fun _ => Hushed.current.bind fun _ => ?_
      split
      · exact Hushed.consume .name
      · exact Hushed.pure _
    · exact Hushed.pure _
  have hcomma : Hushed importedComma := by
    refine Hushed.current.bind fun t => ?_
    split
    · exact Hushed.consume .op
    · exact Hushed.pure _
  have hrest : Hushed (do
      consume .name
      note (.imported (← current))
      importedAlias
      importedComma
      note (.imported (← current))) :=
    (Hushed.consume .name).bind fun _ => Hushed.current.bind fun _ => (Hushed.note rfl).bind fun _ =>
      halias.bind fun _ => hcomma.bind fun _ => Hushed.current.bind fun _ => Hushed.note rfl
  refine (Hushed.note rfl).bind fun _ => ?_
  cases isFeature with
  | false => exact hrest
  | true =>
    refine ((Hushed.note rfl).bind fun _ => Hushed.modify fun s => ?_).bind fun _ => hrest
    split <;> rfl

theorem fromImport_hushed : Hushed fromImport := by
  have hnames (isFeature bracketed : Bool) :
      Hushed (loop (importedNamesStep isFeature bracketed) ()) := by
    refine Hushed.loop (fun _ => Hushed.current.bind fun t => ?_) ()
    split
    · exact Hushed.pure _
    · split
      · exact (importedName_hushed isFeature t).bind fun _ => Hushed.pure _
      · exact Hushed.move.bind fun _ => Hushed.pure _
  refine (Hushed.note rfl).bind fun _ => importSource_hushed.bind fun isFeature => ?_
  refine Hushed.current.bind fun t => ?_
  dsimp only
  split
  · exact (Hushed.consume .op).bind fun _ => hnames isFeature _
  · exact hnames isFeature _

end DocLint.Outline
