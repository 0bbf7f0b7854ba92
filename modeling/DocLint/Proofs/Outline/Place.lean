import DocLint.Proofs.Outline.Program

/-!
Places in a list of tokens. Whatever a reader does, the state in which it ends stands at a place of the
same list, not before the one at which it began; and a loop whose steps take tokens comes to an end.
-/

set_option autoImplicit false

namespace DocLint.Outline

variable {α β : Type} {ts : List Token} {n m k : Nat} {t : Token}

def rowAt (ts : List Token) (n : Nat) : Nat :=
  match ts[n]? with
  | some t => t.start.row
  | none => (ts.getLast?.map (·.start.row)).getD 0

def freshAt (ts : List Token) (n : Nat) : Bool := (ts.take n).foldl freshAfter true

/-- A state stands before a token of a list, or behind the last one. -/
structure At (ts : List Token) (n : Nat) (s : State) : Prop where
  le : n ≤ ts.length
  rest : s.rest = ts.drop n
  line : s.line = rowAt ts n
  fresh : s.fresh = freshAt ts n

theorem rowAt_of_getElem? (h : ts[n]? = some t) : rowAt ts n = t.start.row := by
  simp [rowAt,h]

theorem rowAt_length (h : ts[n]? = some t) (hn : n + 1 = ts.length) :
    rowAt ts (n + 1) = t.start.row := by
  have hlast : ts.getLast? = some t := by
    rw [List.getLast?_eq_getElem?,← hn]
    simpa using h
  simp [rowAt,hn,hlast]

theorem freshAt_succ (h : ts[n]? = some t) :
    freshAt ts (n + 1) = freshAfter (freshAt ts n) t := by
  simp [freshAt,List.take_add_one,h]

namespace At

variable {s : State}

theorem drop_eq (hs : At ts n s) (h : ts[n]? = some t) : s.rest = t :: ts.drop (n + 1) := by
  have hn : n < ts.length := (List.getElem?_eq_some_iff.mp h).1
  rw [hs.rest,List.drop_eq_getElem_cons hn]
  obtain ⟨_,rfl⟩ := List.getElem?_eq_some_iff.mp h
  rfl

theorem head? (hs : At ts n s) : s.rest.head? = ts[n]? := by
  rw [hs.rest,List.head?_drop]

theorem of_cursor {s' : State} (hs : At ts n s) (hr : s'.rest = s.rest) (hl : s'.line = s.line)
    (hf : s'.fresh = s.fresh) : At ts n s' :=
  ⟨hs.le,hr.trans hs.rest,hl.trans hs.line,hf.trans hs.fresh⟩

theorem advance (hs : At ts n s) (h : ts[n]? = some t) :
    At ts (n + 1) (s.advance t (ts.drop (n + 1))) := by
  have hn : n < ts.length := (List.getElem?_eq_some_iff.mp h).1
  refine ⟨hn,rfl,?_,?_⟩
  · cases hd : ts.drop (n + 1) with
    | nil =>
      have hlen : ts.length ≤ n + 1 := List.drop_eq_nil_iff.mp hd
      simp only [State.advance]
      rw [rowAt_length h (by omega),hs.line,rowAt_of_getElem? h]
    | cons u us =>
      have hu : ts[n + 1]? = some u := by rw [← List.head?_drop,hd]; rfl
      simp only [State.advance]
      rw [rowAt_of_getElem? hu]
  · rw [freshAt_succ h,← hs.fresh]
    rfl

end At

theorem State.ofTokens?_at {s : State} (h : State.ofTokens? ts = some s) : At ts 0 s := by
  cases ts with
  | nil => cases h
  | cons t ts =>
    cases h
    exact ⟨Nat.zero_le _,rfl,rfl,rfl⟩

/-- Whether tokens are read without a fault, to a result that passes a test. -/
def readsTo (ts : List Token) (r : Reader α) (test : α → State → Bool) : Bool :=
  (State.ofTokens? ts).any fun s =>
    match r s with
    | .ok a s' => test a s'
    | .error _ _ => false

theorem exists_of_readsTo {r : Reader α} {test : α → State → Bool} (h : readsTo ts r test = true) :
    ∃ s a s', State.ofTokens? ts = some s ∧ r s = .ok a s' ∧ test a s' = true := by
  unfold readsTo at h
  cases hs : State.ofTokens? ts with
  | none =>
    rw [hs] at h
    cases h
  | some s =>
    rw [hs,Option.any_some] at h
    cases hrun : r s with
    | error f s' =>
      rw [hrun] at h
      cases h
    | ok a s' =>
      rw [hrun] at h
      exact ⟨s,a,s',rfl,hrun,h⟩

def Through (ts : List Token) (n m : Nat) (P : Token → Prop) : Prop :=
  ∀ i t, n ≤ i → i < m → ts[i]? = some t → P t

namespace Through

variable {P Q : Token → Prop}

theorem empty (h : m ≤ n) : Through ts n m P := fun i _ h₁ h₂ => by omega

theorem mono (h : Through ts n m P) (hPQ : ∀ t, P t → Q t) : Through ts n m Q :=
  fun i t h₁ h₂ ht => hPQ t (h i t h₁ h₂ ht)

theorem part {n' m' : Nat} (h : Through ts n m P) (hn : n ≤ n') (hm : m' ≤ m) :
    Through ts n' m' P :=
  fun i t h₁ h₂ ht => h i t (by omega) (by omega) ht

theorem append (h₁ : Through ts n k P) (h₂ : Through ts k m P) : Through ts n m P := by
  intro i t hn hm ht
  by_cases hi : i < k
  · exact h₁ i t hn hi ht
  · exact h₂ i t (by omega) hm ht

theorem snoc (h : Through ts n k P) (ht : ts[k]? = some t) (hP : P t) :
    Through ts n (k + 1) P := by
  refine h.append fun i u h₁ h₂ hu => ?_
  obtain rfl : i = k := by omega
  cases ht.symm.trans hu
  exact hP

end Through

/-- Begun at a place, a reader ends at another one, where `Q` holds, or fails; it never runs out of
steps. -/
def Moves (ts : List Token) (n : Nat) (r : Reader α) (Q : α → Nat → Prop) : Prop :=
  ∀ s, At ts n s → match r s with
    | .ok v s' => ∃ m, n ≤ m ∧ At ts m s' ∧ Q v m
    | .error f _ => f ≠ .stalled

namespace Moves

variable {Q : α → Nat → Prop} {P : β → Nat → Prop} {r : Reader α}

theorem ok {s s' : State} {v : α} (h : Moves ts n r Q) (hs : At ts n s) (hr : r s = .ok v s') :
    ∃ m, n ≤ m ∧ At ts m s' ∧ Q v m := by
  have := h s hs
  rw [hr] at this
  exact this

theorem error {s s' : State} {f : Fault} (h : Moves ts n r Q) (hs : At ts n s)
    (hr : r s = .error f s') : f ≠ .stalled := by
  have := h s hs
  rw [hr] at this
  exact this

theorem imp {Q' : α → Nat → Prop} (h : Moves ts n r Q) (hQ : ∀ v m, n ≤ m → Q v m → Q' v m) :
    Moves ts n r Q' := by
  intro s hs
  have := h s hs
  split at this
  · obtain ⟨m,hm,hs',hv⟩ := this
    exact ⟨m,hm,hs',hQ _ m hm hv⟩
  · exact this

theorem pure {v : α} (h : Q v n) : Moves ts n (pure v) Q := fun _ hs => ⟨n,Nat.le_refl n,hs,h⟩

theorem throw {f : Fault} (h : f ≠ .stalled) : Moves ts n (throw f : Reader α) Q := fun _ _ => h

theorem bind {f : α → Reader β} (hr : Moves ts n r Q)
    (hf : ∀ v m, n ≤ m → Q v m → Moves ts m (f v) P) : Moves ts n (r >>= f) P := by
  intro s hs
  change match EStateM.bind r f s with
    | .ok v s' => ∃ m, n ≤ m ∧ At ts m s' ∧ P v m
    | .error f _ => f ≠ .stalled
  have h₁ := hr s hs
  cases hrs : r s with
  | error f s' =>
    rw [hrs] at h₁
    simp only [EStateM.bind,hrs]
    exact h₁
  | ok v s' =>
    rw [hrs] at h₁
    obtain ⟨k,hk,hs',hv⟩ := h₁
    have h₂ := hf v k hk hv s' hs'
    simp only [EStateM.bind,hrs]
    split at h₂
    · obtain ⟨m,hm,hs'',hp⟩ := h₂
      exact ⟨m,by omega,hs'',hp⟩
    · exact h₂

theorem get_bind {f : State → Reader β} (hf : ∀ s, At ts n s → Moves ts n (f s) P) :
    Moves ts n (get >>= f) P := fun s hs => hf s hs s hs

theorem modify_bind {g : State → State} {f : Unit → Reader β}
    (hg : ∀ s, (g s).rest = s.rest ∧ (g s).line = s.line ∧ (g s).fresh = s.fresh)
    (hf : Moves ts n (f ()) P) : Moves ts n (modify g >>= f) P :=
  fun s hs => hf (g s) (hs.of_cursor (hg s).1 (hg s).2.1 (hg s).2.2)

theorem modify {g : State → State} {Q : Unit → Nat → Prop}
    (hg : ∀ s, (g s).rest = s.rest ∧ (g s).line = s.line ∧ (g s).fresh = s.fresh) (hQ : Q () n) :
    Moves ts n (modify g) Q := modify_bind hg (Moves.pure hQ)

theorem note_bind {e : Note} {f : Unit → Reader β} (hf : Moves ts n (f ()) P) :
    Moves ts n (note e >>= f) P := modify_bind (fun _ => ⟨rfl,rfl,rfl⟩) hf

theorem note {e : Note} {Q : Unit → Nat → Prop} (hQ : Q () n) : Moves ts n (note e) Q :=
  modify (fun _ => ⟨rfl,rfl,rfl⟩) hQ

theorem line_bind {f : Nat → Reader β} (hf : Moves ts n (f (rowAt ts n)) P) :
    Moves ts n (line >>= f) P := get_bind fun s hs => by
  rw [← hs.line] at hf
  exact hf

theorem current?_bind {f : Option Token → Reader β} (hf : Moves ts n (f ts[n]?) P) :
    Moves ts n (current? >>= f) P := get_bind fun s hs => by
  rw [← hs.head?] at hf
  exact hf

theorem current : Moves ts n current fun t m => m = n ∧ ts[n]? = some t := by
  refine current?_bind ?_
  cases ht : ts[n]? with
  | none => exact throw (by simp)
  | some t => exact pure ⟨rfl,rfl⟩

theorem current_bind {f : Token → Reader β} (hf : ∀ t, ts[n]? = some t → Moves ts n (f t) P) :
    Moves ts n (Outline.current >>= f) P := by
  refine bind current ?_
  rintro t _ - ⟨rfl,ht⟩
  exact hf t ht

theorem move : Moves ts n move fun t m => m = n + 1 ∧ ts[n]? = some t := by
  refine get_bind fun s hs => ?_
  cases ht : ts[n]? with
  | none =>
    have hr : s.rest = [] := List.head?_eq_none_iff.mp (hs.head?.trans ht)
    rw [hr]
    exact throw (by simp)
  | some t =>
    rw [hs.drop_eq ht]
    exact fun _ _ => ⟨n + 1,Nat.le_succ n,hs.advance ht,rfl,rfl⟩

theorem move_bind {f : Token → Reader β} (hf : ∀ t, ts[n]? = some t → Moves ts (n + 1) (f t) P) :
    Moves ts n (Outline.move >>= f) P := by
  refine bind move ?_
  rintro t _ - ⟨rfl,ht⟩
  exact hf t ht

theorem consume_bind {kind : TokenKind} {f : Unit → Reader β}
    (hf : ∀ t, ts[n]? = some t → t.kind = kind → Moves ts (n + 1) (f ()) P) :
    Moves ts n (consume kind >>= f) P := by
  refine bind (Q := fun _ m => m = n + 1 ∧ ∃ t, ts[n]? = some t ∧ t.kind = kind) (move_bind fun t ht => ?_) ?_
  · split
    · exact throw (by simp)
    · rename_i hk
      exact pure ⟨rfl,t,ht,Decidable.not_not.mp hk⟩
  · rintro _ _ - ⟨rfl,t,ht,hk⟩
    exact hf t ht hk

theorem consume {kind : TokenKind} {Q : Unit → Nat → Prop}
    (hQ : ∀ t, ts[n]? = some t → t.kind = kind → Q () (n + 1)) : Moves ts n (consume kind) Q := by
  have h := consume_bind (f := fun _ => Pure.pure ()) fun t ht hk => pure (Q := Q) (hQ t ht hk)
  rwa [bind_pure] at h

/-- A loop keeps an invariant if each step does, and it ends if each step that goes on takes a token. -/
theorem loop {step : α → Reader (α ⊕ β)} {a : α} {I : α → Nat → Prop} (ha : I a n)
    (h : ∀ a k, n ≤ k → I a k → Moves ts k (step a) fun v m =>
      v.elim (fun a' => k < m ∧ I a' m) (P · m)) :
    Moves ts n (loop step a) P := by
  suffices hrep : ∀ fuel a k, n ≤ k → I a k → ts.length - k < fuel →
      Moves ts k (repeating step fuel a) P from
    get_bind fun s hs => hrep _ a n (Nat.le_refl n) ha (by rw [hs.rest,List.length_drop]; omega)
  intro fuel
  induction fuel with
  | zero => intro a k _ _ hlt; omega
  | succ fuel ih =>
    intro a k hk hI hlt
    refine bind (h a k hk hI) fun v m hm hv => ?_
    cases v with
    | inr b => exact pure hv
    | inl a' =>
      obtain ⟨hkm,hI'⟩ := hv
      by_cases hend : k < ts.length
      · exact ih a' m (by omega) hI' (by omega)
      · -- No place lies behind the end of the list.
        exact fun s hs => absurd hs.le (by omega)

end Moves

end DocLint.Outline
