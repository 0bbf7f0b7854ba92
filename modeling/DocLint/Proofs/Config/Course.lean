import DocLint.Config.Selection
import DocLint.Proofs.Config.Independence

/-!
Sessions in the course of a run, which looks up configurations and chooses files. What a lookup gives is
the same at any time, but for the codes; no lookup chooses a file.
-/

set_option autoImplicit false

namespace DocLint

def Event.selected? : Event → Option Selected
  | .log _ => none
  | .file x => some x

def Session.chosen (s : Session) : List Selected := s.trail.filterMap Event.selected?

theorem Session.chosen_record (s : Session) (lines : List LogLine) :
    (s.record lines).chosen = s.chosen := by
  simp [chosen,record,List.filterMap_map,Function.comp_def,Event.selected?]

namespace Lookup

variable {α β : Type} {w : Workspace} {given : Settings} {o : Override} {run : RunOptions}
  {s s' s₀ s₁ : Session} {before : List Text} {location : Text}

/-! ### Steps one after the other -/

theorem exists_gives (x : Lookup α) (s : Session) : ∃ r s', Gives x s r s' := by
  cases h : x s with
  | ok a s' => exact ⟨.ok a,s',h⟩
  | error e s' => exact ⟨.error e,s',h⟩

theorem Gives.of_ok {x : Lookup α} {r : Except ConfigFault α} {a : α} (h : Gives x s r s')
    (hx : x s = .ok a s₁) : r = .ok a ∧ s' = s₁ := by
  cases r <;> simp only [Gives] at h <;> simp_all

theorem Gives.of_error {x : Lookup α} {r : Except ConfigFault α} {e : ConfigFault} (h : Gives x s r s')
    (hx : x s = .error e s₁) : r = .error e ∧ s' = s₁ := by
  cases r <;> simp only [Gives] at h <;> simp_all

theorem Gives.unique {x : Lookup α} {r r' : Except ConfigFault α} (h : Gives x s r s')
    (h' : Gives x s r' s₁) : r = r' ∧ s' = s₁ := by
  cases r' with
  | ok a => exact h.of_ok h'
  | error e => exact h.of_error h'

theorem Gives.bind {x : Lookup α} {f : α → Lookup β} {a : α} {r : Except ConfigFault β}
    (h : x s = .ok a s₁) (hf : Gives (f a) s₁ r s') : Gives (x >>= f) s r s' := by
  cases r <;> exact (bind_ok h).trans hf

theorem gives_bind {x : Lookup α} {f : α → Lookup β} {r : Except ConfigFault β}
    (h : Gives (x >>= f) s r s') : (∃ a s₁, x s = .ok a s₁ ∧ Gives (f a) s₁ r s') ∨
      ∃ e, x s = .error e s' ∧ r = .error e := by
  cases hx : x s with
  | ok a s₁ =>
    refine .inl ⟨a,s₁,rfl,?_⟩
    cases r <;> exact (bind_ok hx).symm.trans h
  | error e s₁ =>
    obtain ⟨rfl,rfl⟩ := h.of_error (bind_error hx)
    exact .inr ⟨e,rfl,rfl⟩

/-! ### Steps that choose no file -/

def ChoosesNone (x : Lookup α) : Prop := ∀ s r s', Gives x s r s' → s'.chosen = s.chosen

theorem ChoosesNone.bind {x : Lookup α} {f : α → Lookup β} (hx : ChoosesNone x)
    (hf : ∀ a, ChoosesNone (f a)) : ChoosesNone (x >>= f) := by
  intro s r s' h
  rcases gives_bind h with ⟨a,s₁,ha,h⟩ | ⟨e,he,rfl⟩
  · exact (hf a s₁ r s' h).trans (hx s (.ok a) s₁ ha)
  · exact hx s (.error e) s' he

theorem choosesNone_pure (a : α) : ChoosesNone (pure a : Lookup α) := by
  intro s r s' h
  obtain ⟨-,rfl⟩ := h.of_ok rfl
  rfl

theorem choosesNone_throw (e : ConfigFault) : ChoosesNone (throw e : Lookup α) := by
  intro s r s' h
  obtain ⟨-,rfl⟩ := h.of_error rfl
  rfl

theorem choosesNone_get : ChoosesNone (get : Lookup Session) := by
  intro s r s' h
  obtain ⟨-,rfl⟩ := h.of_ok rfl
  rfl

theorem choosesNone_modify {f : Session → Session} (hf : ∀ s, (f s).chosen = s.chosen) :
    ChoosesNone (modify f : Lookup Unit) := by
  intro s r s' h
  obtain ⟨-,rfl⟩ := h.of_ok rfl
  exact hf s

theorem choosesNone_ofLogged (x : Logged ConfigFault α) : ChoosesNone (ofLogged x) := by
  intro s r s' h
  cases hx : x.run [] with
  | ok a lines =>
    obtain ⟨-,rfl⟩ := h.of_ok (ofLogged_ok hx)
    exact s.chosen_record lines
  | error e lines =>
    obtain ⟨-,rfl⟩ := h.of_error (ofLogged_error hx)
    exact s.chosen_record lines

theorem choosesNone_log (level : Level) (text : Text) : ChoosesNone (log level text) :=
  choosesNone_modify fun s => s.chosen_record _

theorem choosesNone_settings : ChoosesNone settings := by
  refine choosesNone_get.bind fun s => ?_
  cases s.settings with
  | some given => exact choosesNone_pure given
  | none => exact choosesNone_throw _

theorem choosesNone_startingCodes (own : Settings) : ChoosesNone (startingCodes own) := by
  refine choosesNone_get.bind fun s => ?_
  cases s.startingCodes own with
  | ok codes => exact choosesNone_pure codes
  | error e => exact choosesNone_throw e

theorem choosesNone_revise (origin : Origin) (own : Settings) : ChoosesNone (revise origin own) :=
  choosesNone_modify fun _ => rfl

theorem choosesNone_create (origin : Origin) (own : Settings) : ChoosesNone (create origin own) := by
  refine .bind ((choosesNone_startingCodes own).bind fun codes => ?_) fun _ => choosesNone_pure _
  cases codes with
  | some codes =>
    exact .bind (choosesNone_modify fun _ => rfl) fun _ =>
      (choosesNone_revise origin own).bind fun _ => choosesNone_pure _
  | none => exact (choosesNone_revise .standard own).bind fun _ => choosesNone_pure _

theorem choosesNone_merge (origin : Origin) (above : Config) (own : Settings) :
    ChoosesNone (merge origin above own) :=
  (choosesNone_startingCodes own).bind fun _ => .bind (choosesNone_modify fun _ => rfl) fun _ =>
    (choosesNone_revise origin own).bind fun _ => choosesNone_pure _

theorem choosesNone_finish (c : Config) : ChoosesNone (finish c) := by
  refine choosesNone_get.bind fun s => ?_
  cases s.override with
  | none => exact choosesNone_throw _
  | some o =>
    exact choosesNone_settings.bind fun given => (choosesNone_revise _ given).bind fun _ =>
      choosesNone_pure _

theorem choosesNone_plan (w : Workspace) (names : List Text) : ChoosesNone (plan w names) := by
  refine (choosesNone_ofLogged _).bind fun file => ?_
  cases file with
  | none =>
    simp only
    split
    · exact choosesNone_settings.bind fun _ => choosesNone_pure _
    · exact choosesNone_pure _
  | some file => exact (choosesNone_ofLogged _).bind fun _ => choosesNone_pure _

theorem choosesNone_atFolder (w : Workspace) (names : List Text) {above : Lookup Config}
    (h : ChoosesNone above) : ChoosesNone (atFolder w names above) := by
  refine (choosesNone_log _ _).bind fun _ => .bind (choosesNone_get.bind fun s => ?_) fun c =>
    (choosesNone_finish c).bind fun _ => .bind (choosesNone_modify fun _ => rfl) fun _ =>
      choosesNone_pure _
  cases s.known.lookup names with
  | some c => exact choosesNone_pure c
  | none =>
    refine (choosesNone_plan w names).bind fun p => ?_
    cases p with
    | borrow => exact h
    | fresh own => exact choosesNone_create _ own
    | merge own => exact h.bind fun above => choosesNone_merge _ above own

theorem choosesNone_discover (w : Workspace) (names : List Text) : ChoosesNone (discover w names) := by
  induction hn : names.length using Nat.strongRecOn generalizing names with
  | ind n ih =>
    rw [discover_eq]
    refine choosesNone_atFolder w _ ?_
    cases hf : folderOf w names with
    | nil => exact choosesNone_throw _
    | cons m up =>
      have hl := @folderOf_length w names
      rw [hf,List.length_cons] at hl
      exact ih up.length (by omega) up rfl

theorem choosesNone_ofNamedFile (w : Workspace) (file : Text) : ChoosesNone (ofNamedFile w file) := by
  refine (choosesNone_log _ _).bind fun _ => ?_
  split
  · refine choosesNone_get.bind fun s => ?_
    cases s.knownNamed with
    | some c => exact choosesNone_pure c
    | none =>
      refine .bind ((choosesNone_ofLogged _).bind fun found => ?_) fun own =>
        (choosesNone_create _ own).bind fun c => (choosesNone_finish c).bind fun _ =>
          .bind (choosesNone_modify fun _ => rfl) fun _ => choosesNone_pure _
      obtain ⟨own,inherits⟩ := found
      cases own with
      | some own => exact choosesNone_pure own
      | none => exact (choosesNone_log _ _).bind fun _ => choosesNone_settings
  · exact choosesNone_throw _

theorem choosesNone_config (w : Workspace) (location : Text) : ChoosesNone (config w location) := by
  refine choosesNone_get.bind fun s => ?_
  cases s.run with
  | none => exact choosesNone_throw _
  | some run =>
    simp only
    cases run.config with
    | none => exact choosesNone_discover w _
    | some file => exact choosesNone_ofNamedFile w file

/-! ### The course of a run -/

/-- The sessions in the course of a run, each with the locations that were looked up before. -/
inductive Course (w : Workspace) (s₀ : Session) : List Text → Session → Prop where
  | start : Course w s₀ [] s₀
  | look {before : List Text} {s s' : Session} {location : Text} {r : Except ConfigFault Config}
    (h : Course w s₀ before s) (hg : Gives (config w location) s r s') :
    Course w s₀ (before ++ [location]) s'
  | choose {before : List Text} {s : Session} (h : Course w s₀ before s) (files : List Selected) :
    Course w s₀ before { s with trail := s.trail ++ files.map .file }

variable {r r₀ : Except ConfigFault Config} {s₀' : Session}

theorem Course.reached (hb : Begun given o run {} s₀) (hf : run.config = none)
    (h : Course w s₀ before s) : Settled given o run s ∧ Reached w given o s₀.ledger s.ledger := by
  induction h with
  | start => exact ⟨hb.settled,.start⟩
  | @look before s s' location r h hg ih =>
    obtain ⟨r',s₁,hg₁,hs₁,hl⟩ := config_looked (w := w) ih.1 hf location
    obtain ⟨rfl,rfl⟩ := hg.unique hg₁
    exact ⟨hs₁,ih.2.step (proper_namesOf location) hl⟩
  | choose h files ih => exact ⟨⟨ih.1.settings,ih.1.override,ih.1.run⟩,ih.2⟩

theorem Course.once {file : Text} (hb : Begun given o run {} s₀) (hf : run.config = some file)
    (h : Course w s₀ before s) : Once w given o run file s₀.ledger s := by
  induction h with
  | start => exact ⟨hb.settled,.inl ⟨hb.knownNamed,rfl⟩⟩
  | @look before s s' location r h hg ih =>
    obtain ⟨s₁,hg₁,ho,-⟩ := ih.config hf location
    obtain ⟨rfl,rfl⟩ := hg.unique hg₁
    exact ho
  | choose h files ih =>
    exact ⟨⟨ih.settled.settings,ih.settled.override,ih.settled.run⟩,ih.state⟩

theorem Course.settled (hb : Begun given o run {} s₀) (h : Course w s₀ before s) :
    Settled given o run s := by
  cases hf : run.config with
  | none => exact (h.reached hb hf).1
  | some file => exact (h.once hb hf).settled

theorem Course.same (hb : Begun given o run {} s₀) (h : Course w s₀ before s)
    (hg : Gives (config w location) s r s') (hg₀ : Gives (config w location) s₀ r₀ s₀') : r = r₀ := by
  cases hf : run.config with
  | none =>
    have h₀ : ∀ folder, s₀.ledger.known folder = none := fun folder => by simp [Session.ledger,hb.known]
    obtain ⟨hs,hl⟩ := h.reached hb hf
    obtain ⟨r₁,s₁,hg₁,-,hl₁⟩ := config_looked (w := w) hs hf location
    obtain ⟨r₂,s₂,hg₂,-,hl₂⟩ := config_looked (w := w) hb.settled hf location
    obtain ⟨rfl,-⟩ := hg.unique hg₁
    obtain ⟨rfl,-⟩ := hg₀.unique hg₂
    exact hl₁.same_result h₀ hl hl₂
  | some file =>
    obtain ⟨s₁,hg₁,-⟩ := (h.once hb hf).config hf location
    obtain ⟨s₂,hg₂,-⟩ := (Course.start.once (w := w) hb hf).config hf location
    exact (hg.unique hg₁).1.trans (hg₀.unique hg₂).1.symm

/-- The configuration for a location, ready for use, as it is given at the beginning. -/
def sieveAt [Resources] (w : Workspace) (s₀ : Session) (location : Text) : Except ConfigFault Sieve :=
  match config w (w.files.absolute location) s₀ with
  | .ok c _ => Sieve.ofConfig c
  | .error e _ => .error e

theorem sieveAt_eq [Resources] (hg : Gives (config w (w.files.absolute location)) s₀ r s') :
    sieveAt w s₀ location = r >>= Sieve.ofConfig := by
  cases r <;> simp only [Gives] at hg <;> simp only [sieveAt,hg] <;> rfl

/-- In the course of a run, a location has the same sieve at any time. -/
theorem Course.sieve [Resources] (hb : Begun given o run {} s₀) (h : Course w s₀ before s) (location : Text) :
    ∃ s', Course w s₀ (before ++ [w.files.absolute location]) s' ∧ s'.chosen = s.chosen ∧
      match sieveAt w s₀ location with
      | .ok x => ∃ codes, Lookup.sieve w location s = .ok (x, codes) s'
      | .error e => Lookup.sieve w location s = .error e s' := by
  obtain ⟨r,s',hg⟩ := exists_gives (config w (w.files.absolute location)) s
  obtain ⟨r₀,s₀',hg₀⟩ := exists_gives (config w (w.files.absolute location)) s₀
  obtain rfl := h.same hb hg hg₀
  refine ⟨s',h.look hg,choosesNone_config w _ s r s' hg,?_⟩
  rw [sieveAt_eq hg₀]
  cases r with
  | error e => exact bind_error hg
  | ok c =>
    cases hx : Sieve.ofConfig c with
    | error e =>
      change (match Sieve.ofConfig c with | .ok x => _ | .error e => _)
      rw [hx]
      refine (bind_ok hg).trans ?_
      simp only [hx]
      rfl
    | ok x =>
      change (match Sieve.ofConfig c with | .ok x => _ | .error e => _)
      rw [hx]
      refine ⟨s'.codesAt c.codes,(bind_ok hg).trans ?_⟩
      simp only [hx]
      rfl

end Lookup

end DocLint
