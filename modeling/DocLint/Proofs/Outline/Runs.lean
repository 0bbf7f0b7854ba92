import DocLint.Outline.Read

/-!
What readers do to the place at which they stand. Definitions depend on the tokens ahead, on the
line, on whether a statement may open and on the decorators that wait; notes, exported names and
features are left out of account.
-/

set_option autoImplicit false

namespace DocLint.Outline

structure Spot where
  rest : List Token
  line : Nat
  fresh : Bool
  pending : List Decorator

def State.spot (s : State) : Spot := ⟨s.rest, s.line, s.fresh, s.pending⟩

def rowOf : List Token → Nat
  | [] => 0
  | t :: _ => t.start.row

def Spot.before (ts : List Token) (fresh : Bool) (pending : List Decorator) : Spot :=
  ⟨ts, rowOf ts, fresh, pending⟩

def freshAfter (fresh : Bool) (t : Token) : Bool :=
  t.kind.endsStatement || (fresh && t.kind.isLogicallyBlank)

/-- A reader succeeds at a place with a value and leads to another place. -/
def Runs {α : Type} (r : Reader α) (p : Spot) (a : α) (q : Spot) : Prop :=
  ∀ s : State, s.spot = p → ∃ s', r s = .ok a s' ∧ s'.spot = q

namespace Runs

variable {α β : Type} {p q u : Spot} {a : α} {b : β} {t : Token} {ts us : List Token} {fresh : Bool}
  {ds : List Decorator}

theorem pure : Runs (pure a) p a p := fun s h => ⟨s, rfl, h⟩

theorem step {r : Reader α} (hr : Runs r p a q) {s : State} (hs : s.spot = p) :
    ∃ s', s'.spot = q ∧ ∀ f : α → Reader β, (r >>= f) s = f a s' := by
  obtain ⟨s',h,e⟩ := hr s hs
  refine ⟨s',e,fun f => ?_⟩
  change EStateM.bind r f s = _
  simp only [EStateM.bind,h]

theorem bind {r : Reader α} {f : α → Reader β} (hr : Runs r p a q) (hf : Runs (f a) q b u) :
    Runs (r >>= f) p b u := by
  intro s hs
  obtain ⟨s₁,e₁,h₁⟩ := hr.step hs
  obtain ⟨s₂,h₂,e₂⟩ := hf s₁ e₁
  exact ⟨s₂,(h₁ f).trans h₂,e₂⟩

/-- What is read off the state may depend on the parts that are left out of account. -/
theorem get_bind {f : State → Reader β} (hf : ∀ s : State, s.spot = p → Runs (f s) p b q) :
    Runs (get >>= f) p b q := by
  intro s hs
  obtain ⟨s',h,e⟩ := hf s hs s hs
  exact ⟨s',h,e⟩

theorem modify {f : State → State} (hf : ∀ s : State, s.spot = p → (f s).spot = q) :
    Runs (modify f) p () q := fun s hs => ⟨f s, rfl, hf s hs⟩

theorem note (n : Note) : Runs (note n) p () p := modify fun _ hs => hs

theorem move (h : ts ≠ []) :
    Runs move (.before (t :: ts) fresh ds) t (.before ts (freshAfter fresh t) ds) := by
  rintro ⟨rest,line,f,pending,_,_,_,_⟩ hs
  obtain ⟨rfl,rfl,rfl,rfl⟩ := Spot.mk.inj hs
  cases ts with
  | nil => exact absurd rfl h
  | cons u ts => exact ⟨_,rfl,rfl⟩

theorem move_last :
    Runs Outline.move (.before [t] fresh ds) t ⟨[], t.start.row, freshAfter fresh t, ds⟩ := by
  rintro ⟨rest,line,f,pending,_,_,_,_⟩ hs
  obtain ⟨rfl,rfl,rfl,rfl⟩ := Spot.mk.inj hs
  exact ⟨_,rfl,rfl⟩

theorem current? : Runs current? p p.rest.head? p := by
  rintro s rfl
  exact ⟨s,rfl,rfl⟩

theorem current : Runs current (.before (t :: ts) fresh ds) t (.before (t :: ts) fresh ds) := by
  unfold Outline.current
  exact bind current? pure

theorem current_head (h : ts ≠ []) :
    Runs Outline.current (.before ts fresh ds) (ts.head h) (.before ts fresh ds) := by
  cases ts with
  | nil => exact absurd rfl h
  | cons t ts => exact current

theorem line : Runs line p p.line p := by
  rintro s rfl
  exact ⟨s,rfl,rfl⟩

theorem consume {k : TokenKind} (hk : t.kind = k) (h : ts ≠ []) :
    Runs (consume k) (.before (t :: ts) fresh ds) () (.before ts (freshAfter fresh t) ds) := by
  refine bind (move h) ?_
  simp only [hk,ne_eq,not_true_eq_false,if_false]
  exact pure

end Runs

def Resumes {α : Type} (r : Reader α) (p : Spot) (r' : Reader α) (q : Spot) : Prop :=
  ∀ s : State, s.spot = p → ∃ s', s'.spot = q ∧ r s = r' s'

namespace Resumes

variable {α β : Type} {r r' : Reader α} {p q u : Spot} {a : α}

theorem refl : Resumes r p r p := fun s hs => ⟨s,hs,rfl⟩

theorem trans {r'' : Reader α} (h : Resumes r p r' q) (h' : Resumes r' q r'' u) : Resumes r p r'' u := by
  intro s hs
  obtain ⟨s₁,e₁,h₁⟩ := h s hs
  obtain ⟨s₂,e₂,h₂⟩ := h' s₁ e₁
  exact ⟨s₂,e₂,h₁.trans h₂⟩

theorem bind {f : α → Reader β} {g : Reader β} (hr : Runs r p a q) (hf : Resumes (f a) q g u) :
    Resumes (r >>= f) p g u := by
  intro s hs
  obtain ⟨s₁,e₁,h₁⟩ := hr.step hs
  obtain ⟨s₂,e₂,h₂⟩ := hf s₁ e₁
  exact ⟨s₂,e₂,(h₁ f).trans h₂⟩

theorem runs (h : Resumes r p r' q) (hr : Runs r' q a u) : Runs r p a u := by
  intro s hs
  obtain ⟨s₁,e₁,h₁⟩ := h s hs
  obtain ⟨s₂,h₂,e₂⟩ := hr s₁ e₁
  exact ⟨s₂,h₁.trans h₂,e₂⟩

end Resumes

/-- A loop succeeds at a place, however many steps it may take beyond the number of tokens. -/
def Loops {α β : Type} (step : α → Reader (α ⊕ β)) (a : α) (p : Spot) (b : β) (q : Spot) : Prop :=
  ∀ n, p.rest.length < n → Runs (repeating step n a) p b q

namespace Loops

variable {α β : Type} {step : α → Reader (α ⊕ β)} {p q u : Spot} {a c : α} {b : β}

theorem done (h : Runs (step a) p (.inr b) q) : Loops step a p b q := by
  intro n hn
  cases n with
  | zero => omega
  | succ n => exact Runs.bind h Runs.pure

theorem next (h : Runs (step a) p (.inl c) q) (hlt : q.rest.length < p.rest.length)
    (hq : Loops step c q b u) : Loops step a p b u := by
  intro n hn
  cases n with
  | zero => omega
  | succ n => exact Runs.bind h (hq n (by omega))

theorem runs (h : Loops step a p b q) : Runs (loop step a) p b q := by
  apply Runs.get_bind
  intro s hs
  apply h
  rw [← hs]
  simp [State.spot]

end Loops

section Skipping

variable {t : Token} {ts us : List Token} {fresh : Bool} {ds : List Decorator}

/-- Leaping passes over the tokens that do not match and takes the first one that does. -/
theorem leapfrog_runs {kind : TokenKind} {value : Option Text} (hus : us ≠ [])
    (hts : ∀ x ∈ ts, Token.matches x kind value = false) (ht : Token.matches t kind value = true)
    (hb : t.kind.isLogicallyBlank = false) :
    Runs (leapfrog kind value) (.before (ts ++ t :: us) fresh ds) ()
      (.before us t.kind.endsStatement ds) := by
  apply Loops.runs
  induction ts generalizing fresh with
  | nil =>
    apply Loops.done
    refine Runs.bind Runs.current? (Runs.bind (Runs.move hus) ?_)
    simp only [ht,if_true,freshAfter,hb,Bool.and_false,Bool.or_false]
    exact Runs.pure
  | cons x ts ih =>
    have hx := hts x (by simp)
    refine Loops.next (q := .before (ts ++ t :: us) (freshAfter fresh x) ds) (c := ()) ?_ ?_
      (ih fun y hy => hts y (by simp [hy]))
    · refine Runs.bind Runs.current? (Runs.bind (Runs.move (by simp)) ?_)
      simp only [hx,Bool.false_eq_true,if_false]
      exact Runs.pure
    · simp [Spot.before]

end Skipping

end DocLint.Outline
