import DocLint.Proofs.Outline.Termination

/-!
The loop over the definitions of a module, turn by turn. Between two turns the state is a point of the
run: what is read from there on is what the whole run reads behind it.
-/

set_option autoImplicit false

namespace DocLint.Outline

variable {α β : Type} {ts : List Token} {n k j : Nat} {t : Token} {s s' s₁ s₂ : State}

theorem bind_eq_ok {r : Reader α} {f : α → Reader β} {b : β} (h : (r >>= f) s = .ok b s') :
    ∃ a s₁, r s = .ok a s₁ ∧ f a s₁ = .ok b s' := by
  change EStateM.bind r f s = _ at h
  unfold EStateM.bind at h
  split at h
  · rename_i a s₁ hr
    exact ⟨a,s₁,hr,h⟩
  · cases h

theorem bind_of_ok {r : Reader α} {a : α} (f : α → Reader β) (h : r s = .ok a s₁) :
    (r >>= f) s = f a s₁ := by
  change EStateM.bind r f s = _
  simp only [EStateM.bind,h]

theorem bind_congr {r r' : Reader α} (f : α → Reader β) (h : r s = r' s) : (r >>= f) s = (r' >>= f) s := by
  change EStateM.bind r f s = EStateM.bind r' f s
  simp only [EStateM.bind,h]

/-- From a state with some property, a reader that succeeds comes to a result and a state with another. -/
def Ensures (P : State → Prop) (r : Reader α) (Q : α → State → Prop) : Prop :=
  ∀ s a s', P s → r s = .ok a s' → Q a s'

namespace Ensures

variable {P : State → Prop} {Q : α → State → Prop} {R : β → State → Prop} {r : Reader α}

theorem any : Ensures P r fun _ _ => True := fun _ _ _ _ _ => trivial

theorem imp {P' : State → Prop} {Q' : α → State → Prop} (h : Ensures P' r Q') (hP : ∀ s, P s → P' s)
    (hQ : ∀ a s, Q' a s → Q a s) : Ensures P r Q :=
  fun s a s' hs hr => hQ a s' (h s a s' (hP s hs) hr)

theorem throw_bind {e : Fault} {f : α → Reader β} : Ensures P ((throw e : Reader α) >>= f) R := by
  intro s b s' _ h
  obtain ⟨_,_,hthrown,_⟩ := bind_eq_ok h
  cases hthrown

theorem pure {a : α} (h : ∀ s, P s → Q a s) : Ensures P (pure a) Q := by
  intro s b s' hP hr
  cases hr
  exact h s hP

theorem throw (f : Fault) : Ensures P (throw f : Reader α) Q := by
  intro s a s' _ hr
  cases hr

theorem bind {f : α → Reader β} (hr : Ensures P r Q) (hf : ∀ a, Ensures (Q a) (f a) R) :
    Ensures P (r >>= f) R := by
  intro s b s' hP h
  obtain ⟨a,s₁,ha,h⟩ := bind_eq_ok h
  exact hf a s₁ b s' (hr s a s₁ hP ha) h

theorem get_bind {f : State → Reader β} (hf : ∀ x, P x → Ensures (· = x) (f x) R) :
    Ensures P (get >>= f) R := fun s b s' hP h => hf s hP s b s' rfl h

theorem modify {g : State → State} {R : Unit → State → Prop} (h : ∀ s, P s → R () (g s)) :
    Ensures P (modify g) R := by
  intro s a s' hP hr
  cases hr
  exact h s hP

theorem loop {step : α → Reader (α ⊕ β)} {I : α → State → Prop}
    (h : ∀ a, Ensures (I a) (step a) fun v s => v.elim (I · s) (R · s)) (a : α) :
    Ensures (I a) (loop step a) R := by
  suffices hrep : ∀ fuel a, Ensures (I a) (repeating step fuel a) R from
    fun s b s' hI hr => hrep (s.rest.length + 1) a s b s' hI hr
  intro fuel
  induction fuel with
  | zero => exact fun a => throw _
  | succ fuel ih =>
    intro a
    refine bind (h a) fun v => ?_
    cases v with
    | inl a' => exact ih a'
    | inr b => exact pure fun s hs => hs

end Ensures

/-! ### One turn -/

section Turn

variable {region : Region} {exporting fresh : Bool}

/-- One turn at a token: the definitions that it finds, and whether another turn follows. -/
def turnAt [Resources] (nested : Region → Reader (List Definition)) (region : Region) (exporting fresh : Bool)
    (t : Token) : Reader (List Definition × Bool) := do
  if exporting && t.value == exportName then
    exportStatement
    return ([], true)
  else if t.is .op "@" && fresh then
    consume .op
    decorators
    return ([], true)
  else if t.value = "def" ∨ t.value = "class" then
    return ([← definitionWith nested (region.nested (t.value = "class"))], true)
  else if t.kind = .indent then
    consume .indent
    return (← nested region, true)
  else if t.kind = .dedent then
    consume .dedent
    return ([], false)
  else if t.value = "from" then
    fromImport
    return ([], true)
  else
    let _ ← move
    return ([], true)

theorem definitionsAt_eq [Resources] (next : Region → Bool → Reader (List Definition)) :
    definitionsAt next region exporting fresh t = do
      let (found, more) ← turnAt (fun r => next r false) region exporting fresh t
      if more then return found ++ (← next region exporting) else return found := by
  unfold definitionsAt turnAt
  repeat' split
  all_goals simp_all

theorem turnAt_moves [Resources] {nested : Region → Reader (List Definition)} (ht : ts[n]? = some t)
    (hnested : ∀ k, n < k → ∀ region, Moves ts k (nested region) (Gathers ts k)) :
    Moves ts n (turnAt nested region exporting fresh t) fun _ m => n < m := by
  unfold turnAt
  split
  · exact Moves.bind exportStatement_moves fun _ k _ h => Moves.pure h.2.1
  · split
    · refine Moves.consume_bind fun _ _ _ => Moves.bind decorators_moves fun _ k hk _ => ?_
      exact Moves.pure (by omega)
    · split
      · rename_i hword
        refine Moves.bind (definitionWith_moves ⟨t,ht,hword⟩ fun k hk => hnested k hk _) ?_
        exact fun d k _ h => Moves.pure h.1
      · split
        · refine Moves.consume_bind fun _ _ _ => ?_
          exact Moves.bind (hnested (n + 1) (by omega) _) fun _ k hk _ => Moves.pure (by omega)
        · split
          · exact Moves.consume_bind fun _ _ _ => Moves.pure (by omega)
          · split
            · refine Moves.bind (Q := fun _ m => n < m) ?_ fun _ k _ hk => Moves.pure hk
              refine Moves.note_bind (Moves.bind importSource_moves fun _ k _ hk => ?_)
              exact (importedNames_moves _).imp fun _ m hm _ => by omega
            · exact Moves.move_bind fun _ _ => Moves.pure (by omega)

def moduleTurn [Resources] (t : Token) : Reader (List Definition × Bool) := do
  let fresh := (← get).fresh
  note (.definitions t fresh)
  turnAt (fun r => definitions r false) .module true fresh t

theorem moduleTurn_moves [Resources] (ht : ts[n]? = some t) : Moves ts n (moduleTurn t) fun _ m => n < m :=
  Moves.get_bind fun _ _ => Moves.note_bind (turnAt_moves ht fun _ _ _ => definitions_moves)

theorem definitionsWithin_agree_definitions [Resources] {fuel : Nat} (h : ts.length - n < fuel) :
    Agree ts n (definitionsWithin fuel region exporting) (definitions region exporting) := by
  intro s hs
  have hlen : ts.length - n < s.rest.length + 1 := by
    rw [hs.rest,List.length_drop]
    omega
  exact definitionsWithin_agree h hlen s hs

theorem definitions_of_nil [Resources] (h : s.rest = []) : definitions region exporting s = .ok [] s := by
  change definitionsWithin (s.rest.length + 1) region exporting s = _
  refine (bind_of_ok _ (rfl : current? s = .ok s.rest.head? s)).trans ?_
  rw [h]
  rfl

theorem definitions_at [Resources] (hs : At ts n s) (ht : ts[n]? = some t) :
    definitions region exporting s = definitionsAt definitions region exporting s.fresh t
      { s with notes := .definitions t s.fresh :: s.notes } := by
  have hlt : n < ts.length := (List.getElem?_eq_some_iff.mp ht).1
  have hlen : s.rest.length = ts.length - n := by rw [hs.rest,List.length_drop]
  have hagree : Agree ts n
      (definitionsAt (definitionsWithin s.rest.length) region exporting s.fresh t)
      (definitionsAt definitions region exporting s.fresh t) := by
    refine definitionsAt_agree ht (fun k hk _ _ => definitionsWithin_moves _ (by omega)) ?_
    exact fun k hk _ _ => definitionsWithin_agree_definitions (by omega)
  have hnoted : At ts n { s with notes := .definitions t s.fresh :: s.notes } :=
    hs.of_cursor rfl rfl rfl
  have hhead : s.rest.head? = some t := hs.head?.trans ht
  calc definitions region exporting s
      = definitionsWithin (s.rest.length + 1) region exporting s := rfl
    _ = definitionsAt (definitionsWithin s.rest.length) region exporting s.fresh t
          { s with notes := .definitions t s.fresh :: s.notes } := by
        refine (bind_of_ok _ (rfl : current? s = .ok s.rest.head? s)).trans ?_
        rw [hhead]
        rfl
    _ = _ := hagree _ hnoted

theorem definitions_eq [Resources] (hs : At ts n s) (ht : ts[n]? = some t) :
    definitions .module true s = (do
      let (found, more) ← moduleTurn t
      if more then return found ++ (← definitions .module true) else return found) s := by
  rw [definitions_at hs ht,definitionsAt_eq]
  simp only [moduleTurn,bind_assoc]
  rfl

end Turn

/-! ### Points of a run -/

/-- How many statements about the exported names a token opens at the top level. -/
def statements (t : Token) : Nat := if t.value == exportName then 1 else 0

/-- Turns of the loop lead from one state to another, with so many statements about the exported names
on the way, and the loop goes on there. -/
inductive Turns [Resources] : Nat → State → State → Prop
  | none {s : State} : Turns 0 s s
  | next {k : Nat} {s s₁ s₂ : State} {t : Token} {found : List Definition} (before : Turns k s s₁)
      (current : s₁.rest.head? = some t) (turned : moduleTurn t s₁ = .ok (found, true) s₂) :
      Turns (k + statements t) s s₂

theorem Turns.single [Resources] {found : List Definition} (current : s.rest.head? = some t)
    (turned : moduleTurn t s = .ok (found, true) s₁) : Turns (statements t) s s₁ := by
  have h := Turns.next .none current turned
  rwa [Nat.zero_add] at h

theorem Turns.trans [Resources] (h : Turns k s s₁) (h' : Turns j s₁ s₂) : Turns (k + j) s s₂ := by
  induction h' with
  | none => exact h
  | next _ current turned ih =>
    rw [← Nat.add_assoc]
    exact .next (ih h) current turned

/-- What is read before the definitions: the first line, the codes switched off and the docstring. -/
def moduleOpening : Reader (Nat × Text × Option Docstring) := do
  note .module
  let start ← line
  let skipped ← skipComment
  return (start, skipped, ← docstring)

theorem moduleParts_eq [Resources] : moduleParts = do
    let (start, skipped, docstring) ← moduleOpening
    return (start, skipped, docstring, ← definitions .module true) := by
  simp only [moduleParts,moduleOpening,bind_assoc,pure_bind]

theorem moduleOpening_moves : Moves ts 0 moduleOpening fun _ _ => True :=
  Moves.note_bind (Moves.line_bind (Moves.bind skipComment_moves fun _ _ _ _ =>
    Moves.bind docstring_moves fun _ _ _ _ => Moves.pure trivial))

/-- A point of the run over some tokens, between two turns of the loop over the definitions, with so many
statements about the exported names behind it. -/
def Reaches [Resources] (ts : List Token) (k : Nat) (s : State) : Prop :=
  ∃ s₀ opened s₁, State.ofTokens? ts = some s₀ ∧ moduleOpening s₀ = .ok opened s₁ ∧ Turns k s₁ s

theorem Reaches.turns [Resources] (h : Reaches ts k s) (h' : Turns j s s') : Reaches ts (k + j) s' := by
  obtain ⟨s₀,opened,s₁,hs₀,hopened,hturns⟩ := h
  exact ⟨s₀,opened,s₁,hs₀,hopened,hturns.trans h'⟩

/-- Turns go forward, and behind them the loop reads the rest of what it reads. -/
theorem Turns.resume [Resources] (h : Turns k s s') (hs : At ts n s) :
    ∃ m found, At ts m s' ∧ ∀ f : List Definition → Reader β, (definitions .module true >>= f) s =
      (definitions .module true >>= fun more => f (found ++ more)) s' := by
  induction h with
  | none => exact ⟨n,[],hs,fun f => rfl⟩
  | @next k s s₁ s₂ t found before current turned ih =>
    obtain ⟨m,earlier,hs₁,heq⟩ := ih hs
    have ht : ts[m]? = some t := hs₁.head?.symm.trans current
    obtain ⟨m',-,hs₂,-⟩ := (moduleTurn_moves ht).ok hs₁ turned
    refine ⟨m',earlier ++ found,hs₂,fun f => (heq f).trans ?_⟩
    rw [bind_congr _ (definitions_eq hs₁ ht),bind_assoc,bind_of_ok _ turned]
    simp only [if_true,bind_assoc,pure_bind,List.append_assoc]

/-- From each of its points on, the run over a module goes to the same end. -/
theorem Reaches.resume [Resources] (h : Reaches ts k s) :
    ∃ s₀ start skipped doc found, State.ofTokens? ts = some s₀ ∧ moduleParts s₀ =
      (do return (start, skipped, doc, found ++ (← definitions .module true))) s := by
  obtain ⟨s₀,⟨start,skipped,doc⟩,s₁,hs₀,hopened,hturns⟩ := h
  obtain ⟨n,-,hs₁,-⟩ := moduleOpening_moves.ok (State.ofTokens?_at hs₀) hopened
  obtain ⟨m,found,-,heq⟩ := hturns.resume hs₁
  refine ⟨s₀,start,skipped,doc,found,hs₀,?_⟩
  rw [moduleParts_eq,bind_of_ok _ hopened]
  exact heq _

theorem Reaches.exists_at [Resources] (h : Reaches ts k s) : ∃ n, At ts n s := by
  obtain ⟨s₀,opened,s₁,hs₀,hopened,hturns⟩ := h
  obtain ⟨n,-,hs₁,-⟩ := moduleOpening_moves.ok (State.ofTokens?_at hs₀) hopened
  obtain ⟨m,-,hs,-⟩ := hturns.resume (β := Unit) hs₁
  exact ⟨m,hs⟩

/-- There are no more statements on the way than tokens that may open one. -/
theorem Turns.le_count [Resources] (h : Turns k s s') (hs : At ts n s) :
    ∃ m, At ts m s' ∧ k + (ts.take n).countP (·.value == exportName) ≤
      (ts.take m).countP (·.value == exportName) := by
  induction h with
  | none => exact ⟨n,hs,by omega⟩
  | @next k s s₁ s₂ t found before current turned ih =>
    obtain ⟨m,hs₁,hle⟩ := ih hs
    have ht : ts[m]? = some t := hs₁.head?.symm.trans current
    obtain ⟨m',-,hs₂,hlt⟩ := (moduleTurn_moves ht).ok hs₁ turned
    refine ⟨m',hs₂,?_⟩
    have hone : (ts.take (m + 1)).countP (·.value == exportName) =
        (ts.take m).countP (·.value == exportName) + statements t := by
      simp [List.take_add_one,ht,statements,List.countP_singleton]
    have hnext : m + 1 ≤ m' := hlt
    have hmono := (List.take_sublist_take_left (l := ts) hnext).countP_le (p := (·.value == exportName))
    omega

theorem Reaches.le_count [Resources] (h : Reaches ts k s) : k ≤ ts.countP (·.value == exportName) := by
  obtain ⟨s₀,opened,s₁,hs₀,hopened,hturns⟩ := h
  obtain ⟨n,-,hs₁,-⟩ := moduleOpening_moves.ok (State.ofTokens?_at hs₀) hopened
  obtain ⟨m,-,hle⟩ := hturns.le_count hs₁
  have hmono := (List.take_sublist m ts).countP_le (p := (·.value == exportName))
  omega

/-- The loop ends at a point, at which no token is left or a block is left that was never entered. -/
theorem definitions_turns [Resources] {found : List Definition} (hs : At ts n s)
    (h : definitions .module true s = .ok found s') :
    ∃ k s₁, Turns k s s₁ ∧ (s' = s₁ ∨
      ∃ t last, s₁.rest.head? = some t ∧ moduleTurn t s₁ = .ok (last, false) s') := by
  induction hl : ts.length - n using Nat.strongRecOn generalizing n s found with
  | ind l ih =>
    cases ht : ts[n]? with
    | none =>
      have hnil : s.rest = [] := List.head?_eq_none_iff.mp (hs.head?.trans ht)
      cases (definitions_of_nil hnil).symm.trans h
      exact ⟨0,_,.none,.inl rfl⟩
    | some t =>
      have hlt : n < ts.length := (List.getElem?_eq_some_iff.mp ht).1
      have hhead : s.rest.head? = some t := hs.head?.trans ht
      rw [definitions_eq hs ht] at h
      obtain ⟨⟨first,more⟩,s₁,hturn,h⟩ := bind_eq_ok h
      cases more with
      | false =>
        cases h
        exact ⟨0,s,.none,.inr ⟨t,_,hhead,hturn⟩⟩
      | true =>
        obtain ⟨rest,s₂,hrest,h⟩ := bind_eq_ok h
        cases h
        obtain ⟨m,hm,hs₁,hlt'⟩ := (moduleTurn_moves ht).ok hs hturn
        have hle := hs₁.le
        obtain ⟨k,s₃,hturns,hend⟩ := ih (ts.length - m) (by omega) hs₁ hrest rfl
        exact ⟨statements t + k,s₃,(Turns.single hhead hturn).trans hturns,hend⟩

end DocLint.Outline
