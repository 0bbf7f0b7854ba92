import DocLint.Proofs.Outline.Asides
import DocLint.Proofs.Outline.Nesting
import DocLint.Proofs.Outline.Pieces
import DocLint.Resources.Builtin

/-!
Where logical lines open. That a statement may open at a token is told by the tokens before it alone. The
reader of definitions goes by it: as its notes tell, it begins decorators at those `@` that open a logical
line and nowhere else.
-/

set_option autoImplicit false

namespace DocLint.Outline

variable {α β : Type} {ts : List Token} {n m k p : Nat} {t : Token} {s : State}

/-! ### Lines -/

/-- The last of some tokens that is neither a comment nor a line break that ends no statement. -/
def lastStated? (before : List Token) : Option Token :=
  (before.filter fun t => !([TokenKind.nl, .comment].contains t.kind)).getLast?

/-- Whether a logical line opens at a place: there is no such token before it, or the last one ends a line or
opens or closes a block. -/
def opensLine (ts : List Token) (n : Nat) : Bool :=
  (lastStated? (ts.take n)).all fun t => [TokenKind.newline, .indent, .dedent].contains t.kind

theorem lastStated?_concat (before : List Token) (t : Token) :
    lastStated? (before ++ [t]) =
      if t.kind = .nl ∨ t.kind = .comment then lastStated? before else some t := by
  unfold lastStated?
  rw [List.filter_append]
  split
  · rename_i h
    rcases h with h | h <;> simp [h]
  · rename_i h
    simp [not_or.mp h]

theorem lastStated?_take_succ (h : ts[n]? = some t) :
    lastStated? (ts.take (n + 1)) =
      if t.kind = .nl ∨ t.kind = .comment then lastStated? (ts.take n) else some t := by
  rw [List.take_add_one,h,Option.toList_some,lastStated?_concat]

theorem opensLine_succ (h : ts[n]? = some t) :
    opensLine ts (n + 1) = freshAfter (opensLine ts n) t := by
  unfold opensLine freshAfter
  rw [lastStated?_take_succ h]
  cases hk : t.kind <;> simp [hk,TokenKind.endsStatement,TokenKind.isLogicallyBlank]

/-- One token after the other, what is known of the last one is enough to know it of the next. -/
theorem freshAt_eq_opensLine (h : n ≤ ts.length) : freshAt ts n = opensLine ts n := by
  induction n with
  | zero => rfl
  | succ n ih =>
    have ht : ts[n]? = some (ts.get ⟨n,h⟩) := List.getElem?_eq_getElem h
    rw [freshAt_succ ht,opensLine_succ ht,ih (by omega)]

theorem At.fresh_eq (hs : At ts n s) : s.fresh = opensLine ts n :=
  hs.fresh.trans (freshAt_eq_opensLine hs.le)

def takeTokens : Nat → Reader Unit
  | 0 => pure ()
  | n + 1 => do
    let _ ← move
    takeTokens n

theorem move_at (hs : At ts n s) (ht : ts[n]? = some t) :
    ∃ s', move s = .ok t s' ∧ At ts (n + 1) s' ∧ s'.notes = s.notes := by
  refine ⟨_,?_,hs.advance ht,rfl⟩
  refine (bind_of_ok _ (rfl : (get : Reader State) s = .ok s s)).trans ?_
  rw [hs.drop_eq ht]
  rfl

theorem takeTokens_at (hs : At ts k s) (h : k + n ≤ ts.length) :
    ∃ s', takeTokens n s = .ok () s' ∧ At ts (k + n) s' := by
  induction n generalizing k s with
  | zero => exact ⟨s,rfl,hs⟩
  | succ n ih =>
    have ht : ts[k]? = some (ts.get ⟨k,by omega⟩) := List.getElem?_eq_getElem _
    obtain ⟨s₁,hmove,hs₁,-⟩ := move_at hs ht
    obtain ⟨s₂,htake,hs₂⟩ := ih hs₁ (by omega)
    refine ⟨s₂,(bind_of_ok _ hmove).trans htake,?_⟩
    rwa [Nat.add_right_comm] at hs₂

/-- The operator `@` stands behind an operand, with nothing but comments and line breaks between them. -/
structure Multiplies (ts : List Token) (n : Nat) : Prop where
  operator : ∃ t, ts[n]? = some t ∧ t.is .op "@" = true
  operand : ∃ i t, i < n ∧ ts[i]? = some t ∧ [TokenKind.name, .number, .string, .op].contains t.kind = true ∧
    Through ts (i + 1) n fun u => u.kind = .nl ∨ u.kind = .comment

theorem lastStated?_through {i : Nat} (hin : i < n) (hn : n ≤ ts.length) (ht : ts[i]? = some t)
    (hk : ¬ (t.kind = .nl ∨ t.kind = .comment))
    (h : Through ts (i + 1) n fun u => u.kind = .nl ∨ u.kind = .comment) :
    lastStated? (ts.take n) = some t := by
  induction n with
  | zero => omega
  | succ n ih =>
    have hu : ts[n]? = some (ts.get ⟨n,hn⟩) := List.getElem?_eq_getElem hn
    rw [lastStated?_take_succ hu]
    by_cases hlast : i = n
    · subst hlast
      cases ht.symm.trans hu
      rw [if_neg hk]
    · rw [if_pos (h n _ (by omega) (by omega) hu)]
      exact ih (by omega) (by omega) (h.part (Nat.le_refl _) (by omega))

theorem Multiplies.not_opensLine (h : Multiplies ts n) : opensLine ts n = false := by
  obtain ⟨⟨u,hu,-⟩,i,t,hi,ht,hk,hthrough⟩ := h
  have hn : n < ts.length := (List.getElem?_eq_some_iff.mp hu).1
  have hstated : ¬ (t.kind = .nl ∨ t.kind = .comment) := by
    rintro (h | h) <;> rw [h] at hk <;> cases hk
  unfold opensLine
  rw [lastStated?_through hi (by omega) ht hstated hthrough]
  cases hkind : t.kind <;> simp_all

/-! ### Notes -/

/-- Tokens with which others are read: the name of the export list, and the words that open a definition or
an import. -/
def opensPiece (t : Token) : Prop :=
  t.value = exportName ∨ t.value = "def".toList ∨ t.value = "class".toList ∨ t.value = "from".toList

theorem opensPiece.unmarked (h : opensPiece t) : t.is .op "@" = false := by
  rw [Bool.eq_false_iff]
  intro hmark
  have hv : t.value = "@".toList := value_of_is hmark
  rcases h with h | h | h | h <;> exact absurd (hv.symm.trans h) (by decide)

inductive Journal (ts : List Token) : Nat → Nat → List Note → Prop
  | done {n : Nat} : Journal ts n n []
  | aside {n m : Nat} {e : Note} {log : List Note} (he : e.isAside = true) (rest : Journal ts n m log) :
      Journal ts n m (e :: log)
  /-- At an `@` that opens a logical line decorators are begun, and all tokens up to the next turn are read
  for them. -/
  | decorated {n k m : Nat} {t : Token} {log : List Note} (current : ts[n]? = some t)
      (mark : t.is .op "@" = true) (opens : opensLine ts n = true) (hlt : n < k)
      (rest : Journal ts k m log) : Journal ts n m
        (.definitions t true :: (((ts.drop (n + 1)).take (k - n)).map Note.decorators ++ log))
  /-- At any other token they are not, and the next turn is at the next token unless a piece is read. -/
  | other {n k m : Nat} {t : Token} {log : List Note} (current : ts[n]? = some t)
      (unmarked : (t.is .op "@" && opensLine ts n) = false) (hlt : n < k) (single : k = n + 1 ∨ opensPiece t)
      (rest : Journal ts k m log) : Journal ts n m (.definitions t (opensLine ts n) :: log)

theorem Journal.append {log log' : List Note} (h : Journal ts n k log) (h' : Journal ts k m log') :
    Journal ts n m (log ++ log') := by
  induction h with
  | done => exact h'
  | aside he _ ih => exact .aside he (ih h')
  | decorated current mark opens hlt _ ih =>
    rw [List.cons_append,List.append_assoc]
    exact .decorated current mark opens hlt (ih h')
  | other current unmarked hlt single _ ih => exact .other current unmarked hlt single (ih h')

/-! ### Runs -/

/-- Begun at a place, a reader that comes to another one has noted on the way what `C` says of the place
and the notes; and so has one that fails, of some place. -/
def Writes (ts : List Token) (n : Nat) (r : Reader α) (C : Nat → List Note → Prop) : Prop :=
  ∀ s, At ts n s → ∃ m log, (resultState (r s)).notes = log.reverse ++ s.notes ∧ C m log ∧
    ∀ v s', r s = .ok v s' → At ts m s'

structure Continues (ts : List Token) (C : Nat → List Note → Prop) : Prop where
  start : ∃ m, C m []
  aside : ∀ {m e log}, e.isAside = true → C m log → C m (e :: log)
  append : ∀ {k m log log'}, C k log → Journal ts k m log' → C m (log ++ log')

theorem Continues.asides {C : Nat → List Note → Prop} (hC : Continues ts C) {es log : List Note}
    (hes : ∀ e ∈ es, e.isAside = true) (h : C m log) : C m (es ++ log) := by
  induction es with
  | nil => exact h
  | cons e es ih => exact hC.aside (hes e (by simp)) (ih fun x hx => hes x (by simp [hx]))

theorem Journal.continues : Continues ts (Journal ts n) where
  start := ⟨n,.done⟩
  aside he h := .aside he h
  append h h' := h.append h'

def Beyond (ts : List Token) (p m : Nat) (log : List Note) : Prop := ∃ k, p < k ∧ Journal ts k m log

theorem Beyond.continues : Continues ts (Beyond ts p) where
  start := ⟨p + 1,p + 1,Nat.lt_succ_self p,.done⟩
  aside := fun he ⟨k,hk,h⟩ => ⟨k,hk,.aside he h⟩
  append := fun ⟨k,hk,h⟩ h' => ⟨k,hk,h.append h'⟩

namespace Writes

variable {C D : Nat → List Note → Prop} {Q : α → Nat → Prop} {r : Reader α} {f : α → Reader β}

theorem imp (h : Writes ts n r C) (hCD : ∀ m log, C m log → D m log) : Writes ts n r D := by
  intro s hs
  obtain ⟨m,log,hlog,hC,hok⟩ := h s hs
  exact ⟨m,log,hlog,hCD m log hC,hok⟩

theorem pure {a : α} : Writes ts n (pure a) (Journal ts n) := by
  refine fun s hs => ⟨n,[],rfl,.done,?_⟩
  rintro _ _ ⟨⟩
  exact hs

theorem throw {e : Fault} : Writes ts n (throw e : Reader α) (Journal ts n) :=
  fun _ _ => ⟨n,[],rfl,.done,fun _ _ h => by cases h⟩

theorem bind (hr : Writes ts n r C) (hCD : ∀ m log, C m log → D m log)
    (hf : ∀ v m log, C m log → Writes ts m (f v) fun m' log' => D m' (log ++ log')) :
    Writes ts n (r >>= f) D := by
  intro s hs
  obtain ⟨m,log,hlog,hC,hok⟩ := hr s hs
  cases hrs : r s with
  | error e s₁ =>
    rw [hrs] at hlog
    rw [bind_of_error f hrs]
    exact ⟨m,log,hlog,hCD m log hC,fun _ _ h => by cases h⟩
  | ok v s₁ =>
    rw [hrs] at hlog
    obtain ⟨m',log',hlog',hD,hok'⟩ := hf v m log hC s₁ (hok v s₁ hrs)
    rw [bind_of_ok f hrs]
    refine ⟨m',log ++ log',?_,hD,hok'⟩
    rw [hlog',List.reverse_append,List.append_assoc]
    exact congrArg (log'.reverse ++ ·) hlog

theorem seq (hC : Continues ts C) (hr : Writes ts n r C)
    (hf : ∀ v m, Writes ts m (f v) (Journal ts m)) : Writes ts n (r >>= f) C :=
  bind hr (fun _ _ h => h) fun v m _ h => (hf v m).imp fun _ _ h' => hC.append h h'

theorem hushed_bind (hC : Continues ts C) (hr : Hushed r) (hm : Moves ts n r Q)
    (hf : ∀ v m, n ≤ m → Q v m → Writes ts m (f v) C) : Writes ts n (r >>= f) C := by
  intro s hs
  obtain ⟨es,hes,haside⟩ := hr s
  have hrev : ∀ e ∈ es.reverse, e.isAside = true := fun e he => haside e (List.mem_reverse.mp he)
  cases hrs : r s with
  | error e s₁ =>
    -- Of what fails only the notes are known, so any place will do.
    rw [hrs] at hes
    obtain ⟨m,hstart⟩ := hC.start
    rw [bind_of_error f hrs]
    refine ⟨m,es.reverse ++ [],?_,hC.asides hrev hstart,fun _ _ h => by cases h⟩
    rw [List.append_nil,List.reverse_reverse]
    exact hes
  | ok v s₁ =>
    rw [hrs] at hes
    obtain ⟨k,hk,hs₁,hv⟩ := hm.ok hs hrs
    obtain ⟨m,log,hlog,h,hok⟩ := hf v k hk hv s₁ hs₁
    rw [bind_of_ok f hrs]
    refine ⟨m,es.reverse ++ log,?_,hC.asides hrev h,hok⟩
    rw [hlog,List.reverse_append,List.reverse_reverse,List.append_assoc]
    exact congrArg (log.reverse ++ ·) hes

theorem note_bind {e : Note} {f : Unit → Reader β} (hC : Continues ts C) (he : e.isAside = true)
    (hf : Writes ts n (f ()) C) : Writes ts n (note e >>= f) C := by
  refine hushed_bind hC (Hushed.note he) (Moves.note (Q := fun _ m => m = n) rfl) ?_
  rintro _ _ - rfl
  exact hf

theorem line_bind {f : Nat → Reader β} (hf : ∀ l, Writes ts n (f l) C) : Writes ts n (line >>= f) C :=
  fun s hs => hf s.line s hs

theorem current?_bind {f : Option Token → Reader β} (hf : Writes ts n (f ts[n]?) C) :
    Writes ts n (current? >>= f) C := by
  intro s hs
  rw [← hs.head?] at hf
  exact hf s hs

theorem current_bind {f : Token → Reader β} (hC : Continues ts C)
    (hf : ∀ t, Writes ts n (f t) C) : Writes ts n (current >>= f) C := by
  refine hushed_bind hC Hushed.current Moves.current ?_
  rintro t _ - ⟨rfl,-⟩
  exact hf t

theorem move_bind {f : Token → Reader β} (hC : Continues ts C) (hf : ∀ t, Writes ts (n + 1) (f t) C) :
    Writes ts n (move >>= f) C := by
  refine hushed_bind hC Hushed.move Moves.move ?_
  rintro t _ - ⟨rfl,-⟩
  exact hf t

theorem consume_bind {kind : TokenKind} {f : Unit → Reader β} (hC : Continues ts C)
    (hf : Writes ts (n + 1) (f ()) C) : Writes ts n (consume kind >>= f) C := by
  refine hushed_bind hC (Hushed.consume kind) (Moves.consume (Q := fun _ m => m = n + 1) fun _ _ _ => rfl) ?_
  rintro _ _ - rfl
  exact hf

end Writes

variable {region : Region} {exporting : Bool} {kind : DefinitionKind}
  {nested : Region → Reader (List Definition)} {next : Region → Bool → Reader (List Definition)}

/-- A definition is noted aside, and its body writes a journal of its own. -/
theorem definitionWith_writes (hnested : ∀ k, Writes ts k (nested (.within kind)) (Journal ts k)) :
    Writes ts n (definitionWith nested kind) (Beyond ts n) := by
  -- Up to its body all is noted aside, so the journal may begin at any place behind the keyword.
  have hC : Continues ts (Beyond ts n) := Beyond.continues
  have hdone {d : Definition} {name : Text} {k : Nat} : Writes ts k (do
      note (.definitionDone kind name (← current?))
      return d) (Journal ts k) :=
    Writes.current?_bind (Writes.note_bind Journal.continues rfl Writes.pure)
  refine Writes.line_bind fun start => Writes.consume_bind hC (Writes.current_bind hC fun name => ?_)
  refine Writes.note_bind hC rfl (Writes.move_bind hC fun _ => ?_)
  refine Writes.hushed_bind hC headerEnd_hushed headerEnd_moves fun _ i hi _ => ?_
  refine Writes.current_bind hC fun first => ?_
  dsimp only
  split
  · refine Writes.hushed_bind hC skipComment_hushed skipComment_moves fun _ j hj _ => ?_
    refine Writes.hushed_bind hC (leapfrog_hushed _ _) (leapfrog_moves _ _) fun _ k hk _ => ?_
    refine Writes.current_bind hC fun _ => ?_
    split
    · exact Writes.hushed_bind hC (Hushed.throw _) (Moves.throw (Q := fun _ _ => False) (by simp))
        fun _ _ _ h => h.elim
    · refine Writes.hushed_bind hC docstring_hushed docstring_moves fun _ l hl _ => ?_
      refine Writes.hushed_bind hC takePending_hushed takePending_moves fun _ _ _ h => h ▸ ?_
      refine Writes.note_bind hC rfl (Writes.seq hC ?_ fun _ m => ?_)
      · exact (hnested l).imp fun m log h => ⟨l,by omega,h⟩
      · refine Writes.note_bind Journal.continues rfl (Writes.line_bind fun _ => ?_)
        rw [pure_bind]
        exact hdone
  · refine Writes.hushed_bind hC docstring_hushed docstring_moves fun _ l hl _ => ?_
    refine Writes.hushed_bind hC takePending_hushed takePending_moves fun _ _ _ h => h ▸ ?_
    refine Writes.line_bind fun _ => ?_
    refine Writes.hushed_bind hC (leapfrog_hushed _ _) (leapfrog_moves _ _) fun _ k hk _ => ?_
    rw [pure_bind]
    exact hdone.imp fun m log h => ⟨k,by omega,h⟩

/-! ### Decorators -/

/-- A step of reading decorators notes the token at which it stands, if there is one, and takes it or ends. -/
theorem decoratorStep_at (hs : At ts n s) (d : OpenDecorator) :
    ∃ v s', decoratorStep d s = .ok v s' ∧ s'.notes = ts[n]?.toList.map Note.decorators ++ s.notes ∧
      v.elim (fun _ => n < ts.length ∧ At ts (n + 1) s') fun _ => At ts n s' := by
  unfold decoratorStep
  rw [bind_of_ok _ (rfl : current? s = .ok s.rest.head? s),hs.head?]
  cases ht : ts[n]? with
  | none => exact ⟨.inr (),_,rfl,rfl,hs.of_cursor rfl rfl rfl⟩
  | some t =>
    have hlt : n < ts.length := (List.getElem?_eq_some_iff.mp ht).1
    have hnoted : At ts n { s with notes := .decorators t :: s.notes } := hs.of_cursor rfl rfl rfl
    dsimp only
    rw [bind_of_ok _ (rfl : note (.decorators t) s = .ok () { s with notes := .decorators t :: s.notes })]
    split
    · exact ⟨.inr (),_,rfl,rfl,hnoted.of_cursor rfl rfl rfl⟩
    · split
      · have hadded : At ts n { s with notes := .decorators t :: s.notes, pending := s.pending ++ [d.close] } :=
          hs.of_cursor rfl rfl rfl
        obtain ⟨s₁,hmove,hs₁,hnotes⟩ := move_at hadded ht
        exact ⟨.inl {},s₁,bind_of_ok _ hmove,hnotes,hlt,hs₁⟩
      · obtain ⟨s₁,hmove,hs₁,hnotes⟩ := move_at hnoted ht
        exact ⟨.inl (d.extend t),s₁,bind_of_ok _ hmove,hnotes,hlt,hs₁⟩

/-- The reader of decorators notes all tokens up to the one at which it ends, this one included. -/
theorem decorators_at (hs : At ts n s) :
    ∃ k s', n ≤ k ∧ decorators s = .ok () s' ∧ At ts k s' ∧
      s'.notes = (((ts.drop n).take (k + 1 - n)).map Note.decorators).reverse ++ s.notes := by
  suffices hrep : ∀ fuel d n s, At ts n s → ts.length - n < fuel → ∃ k s', n ≤ k ∧
      repeating decoratorStep fuel d s = .ok () s' ∧ At ts k s' ∧
      s'.notes = (((ts.drop n).take (k + 1 - n)).map Note.decorators).reverse ++ s.notes from
    hrep _ {} n s hs (by rw [hs.rest,List.length_drop]; omega)
  intro fuel
  induction fuel with
  | zero => intro _ _ _ _ h; omega
  | succ fuel ih =>
    intro d n s hs hfuel
    obtain ⟨v,s₁,hstep,hnotes,hv⟩ := decoratorStep_at hs d
    have hrun : repeating decoratorStep (fuel + 1) d s = _ := bind_of_ok _ hstep
    cases v with
    | inr b =>
      refine ⟨n,s₁,Nat.le_refl n,hrun,hv,?_⟩
      have hone : (ts.drop n).take (n + 1 - n) = ts[n]?.toList := by
        rw [Nat.add_sub_cancel_left,List.take_one,List.head?_drop]
      rw [hnotes,hone]
      cases ts[n]? <;> rfl
    | inl d' =>
      obtain ⟨hlt,hs₁⟩ := hv
      obtain ⟨k,s₂,hk,hrest,hs₂,hnotes₂⟩ := ih d' (n + 1) s₁ hs₁ (by omega)
      refine ⟨k,s₂,by omega,hrun.trans hrest,hs₂,?_⟩
      have hlen : k + 1 - n = k + 1 - (n + 1) + 1 := by omega
      rw [hnotes₂,hnotes,List.drop_eq_getElem_cons hlt,hlen,List.take_succ_cons,
        List.getElem?_eq_getElem hlt]
      simp

theorem decorators_writes :
    Writes ts n decorators fun k log =>
      n ≤ k ∧ log = ((ts.drop n).take (k + 1 - n)).map Note.decorators := by
  intro s hs
  obtain ⟨k,s',hk,hrun,hs',hnotes⟩ := decorators_at hs
  rw [hrun]
  refine ⟨k,_,hnotes,⟨hk,rfl⟩,?_⟩
  rintro _ _ ⟨⟩
  exact hs'

/-! ### Definitions -/

theorem Writes.turn {e : Note} {r : Reader α} (h : Writes ts n r fun m log => Journal ts n m (e :: log)) :
    Writes ts n (note e >>= fun _ => r) (Journal ts n) := by
  intro s hs
  obtain ⟨m,log,hlog,hjournal,hok⟩ := h { s with notes := e :: s.notes } (hs.of_cursor rfl rfl rfl)
  refine ⟨m,e :: log,?_,hjournal,hok⟩
  rw [List.reverse_cons,List.append_assoc]
  exact hlog

theorem decorated_writes {r : Reader β} (ht : ts[n]? = some t) (hmark : t.is .op "@" = true)
    (hopens : opensLine ts n = true) (hr : ∀ k, Writes ts k r (Journal ts k)) :
    Writes ts n (do
      consume .op
      decorators
      r) fun m log => Journal ts n m (.definitions t true :: log) := by
  intro s hs
  obtain ⟨s₁,hmove,hs₁,hnotes⟩ := move_at hs ht
  have hconsume : consume .op s = .ok () s₁ := by
    refine (bind_of_ok _ hmove).trans ?_
    rw [if_neg (by simp [kind_of_is hmark])]
    rfl
  have hrest : Writes ts (n + 1) (decorators >>= fun _ => r) fun m log =>
      Journal ts n m (.definitions t true :: log) := by
    refine decorators_writes.bind ?_ ?_
    · -- Should nothing follow, the turn ends with the decorators.
      rintro k _ ⟨hk,rfl⟩
      have h := Journal.decorated ht hmark hopens hk .done
      rwa [List.append_nil,← Nat.add_sub_add_right k 1 n] at h
    · rintro _ k _ ⟨hk,rfl⟩
      refine (hr k).imp fun m log h => ?_
      rw [Nat.add_sub_add_right]
      exact .decorated ht hmark hopens hk h
  obtain ⟨m,log,hlog,h,hok⟩ := hrest s₁ hs₁
  rw [bind_of_ok _ hconsume]
  exact ⟨m,log,hnotes ▸ hlog,h,hok⟩

theorem definitionsAt_writes [Resources] (ht : ts[n]? = some t)
    (hnext : ∀ k region exporting, Writes ts k (next region exporting) (Journal ts k)) :
    Writes ts n (definitionsAt next region exporting (opensLine ts n) t) fun m log =>
      Journal ts n m (.definitions t (opensLine ts n) :: log) := by
  have hC : Continues ts (Beyond ts n) := Beyond.continues
  have hbeyond {k : Nat} (hk : n < k) : Writes ts k (next region exporting) (Beyond ts n) :=
    (hnext k region exporting).imp fun _ _ h => ⟨k,hk,h⟩
  have hpiece {m : Nat} {log : List Note} (ho : opensPiece t) (h : Beyond ts n m log) :
      Journal ts n m (.definitions t (opensLine ts n) :: log) := by
    obtain ⟨k,hk,h⟩ := h
    exact .other ht (by rw [ho.unmarked,Bool.false_and]) hk (.inr ho) h
  unfold definitionsAt
  split
  · rename_i hexport
    refine Writes.imp (C := Beyond ts n) ?_ fun m log => hpiece ?_
    · exact Writes.hushed_bind hC exportStatement_hushed exportStatement_moves fun _ k _ h => hbeyond h.2.1
    · exact .inl (beq_iff_eq.mp ((Bool.and_eq_true _ _).mp hexport).2)
  · split
    · rename_i hmark
      obtain ⟨hat,hopens⟩ := (Bool.and_eq_true _ _).mp hmark
      rw [hopens]
      exact decorated_writes ht hat hopens fun k => hnext k region exporting
    · rename_i hmark
      have hsingle {m : Nat} {log : List Note} (h : Journal ts (n + 1) m log) :
          Journal ts n m (.definitions t (opensLine ts n) :: log) :=
        .other ht (Bool.eq_false_iff.mpr hmark) (Nat.lt_succ_self n) (.inl rfl) h
      split
      · rename_i hword
        refine Writes.imp (C := Beyond ts n) ?_ fun m log => hpiece (.inr (hword.imp_right .inl))
        refine Writes.seq hC (definitionWith_writes fun k => hnext k _ false) fun _ k => ?_
        exact Writes.seq Journal.continues (hnext k region exporting) fun _ _ => Writes.pure
      · split
        · refine Writes.imp (C := Journal ts (n + 1)) ?_ fun m log => hsingle
          refine Writes.consume_bind Journal.continues ?_
          refine Writes.seq Journal.continues (hnext _ region false) fun _ k => ?_
          exact Writes.seq Journal.continues (hnext k region exporting) fun _ _ => Writes.pure
        · split
          · refine Writes.imp (C := Journal ts (n + 1)) ?_ fun m log => hsingle
            exact Writes.consume_bind Journal.continues Writes.pure
          · split
            · rename_i hfrom
              refine Writes.imp (C := Beyond ts n) ?_ fun m log => hpiece (.inr (.inr (.inr hfrom)))
              refine Writes.hushed_bind (Q := fun _ m => n < m) hC fromImport_hushed ?_ fun _ k _ hk => hbeyond hk
              refine Moves.note_bind (Moves.bind importSource_moves fun _ k _ hk => ?_)
              exact (importedNames_moves _).imp fun _ m hm _ => by omega
            · refine Writes.imp (C := Journal ts (n + 1)) ?_ fun m log => hsingle
              exact Writes.move_bind Journal.continues fun _ => hnext _ region exporting

theorem definitionsWithin_writes [Resources] (fuel : Nat) :
    Writes ts n (definitionsWithin fuel region exporting) (Journal ts n) := by
  induction fuel generalizing n region exporting with
  | zero => exact Writes.throw
  | succ fuel ih =>
    refine Writes.current?_bind ?_
    cases ht : ts[n]? with
    | none => exact Writes.pure
    | some t =>
      have hturn : Writes ts n (do
          note (.definitions t (opensLine ts n))
          definitionsAt (definitionsWithin fuel) region exporting (opensLine ts n) t) (Journal ts n) :=
        Writes.turn (definitionsAt_writes ht fun _ _ _ => ih)
      intro s hs
      rw [← hs.fresh_eq] at hturn
      exact hturn s hs

theorem definitions_writes [Resources] : Writes ts n (definitions region exporting) (Journal ts n) :=
  fun s hs => definitionsWithin_writes _ s hs

def isPreliminary (t : Token) : Prop := isFiller t = true ∨ t.kind = .string

def Opened (ts : List Token) (m : Nat) (log : List Note) : Prop :=
  ∃ n, Through ts 0 n isPreliminary ∧ Journal ts n m log

theorem Opened.continues : Continues ts (Opened ts) where
  start := ⟨0,0,Through.empty (Nat.le_refl 0),.done⟩
  aside := fun he ⟨n,hn,h⟩ => ⟨n,hn,.aside he h⟩
  append := fun ⟨n,hn,h⟩ h' => ⟨n,hn,h.append h'⟩

theorem Documented.opening {doc : Option Docstring} (h : Documented ts n m doc) : Through ts n m isPreliminary := by
  obtain ⟨k,t,-,hfillers,ht,-,-,rfl⟩ := h
  have hopening : Through ts n k isPreliminary := hfillers.mono fun _ => .inl
  split
  · rename_i hk
    exact hopening.snoc ht (.inr hk)
  · exact hopening

theorem moduleParts_writes [Resources] : Writes ts 0 moduleParts (Opened ts) := by
  have hC : Continues ts (Opened ts) := Opened.continues
  refine Writes.note_bind hC rfl (Writes.line_bind fun start => ?_)
  refine Writes.hushed_bind hC skipComment_hushed skipComment_moves fun _ j _ hskip => ?_
  refine Writes.hushed_bind hC docstring_hushed docstring_moves fun _ l _ hdoc => ?_
  have hopening : Through ts 0 l isPreliminary := (hskip.mono fun _ => .inl).append hdoc.opening
  refine Writes.seq hC ?_ fun _ _ => Writes.pure
  exact definitions_writes.imp fun m log h => ⟨l,hopening,h⟩

theorem module_writes [Resources] (name : Text) (source : List Text) :
    Writes ts 0 (module name source) fun m log => Opened ts m log := by
  intro s hs
  obtain ⟨m,log,hlog,hopened,hok⟩ := moduleParts_writes s hs
  rw [module_run]
  cases hparts : moduleParts s with
  | error f s' =>
    rw [hparts] at hlog
    exact ⟨m,log,hlog,hopened,fun _ _ h => by cases h⟩
  | ok parts s' =>
    rw [hparts] at hlog
    have hs' := hok parts s' hparts
    dsimp only
    split
    · refine ⟨m,log ++ [.moduleDone],?_,?_,?_⟩
      · rw [List.reverse_append]
        exact congrArg (Note.moduleDone :: ·) hlog
      · exact Opened.continues.append hopened (.aside rfl .done)
      · rintro _ _ ⟨⟩
        exact hs'.of_cursor rfl rfl rfl
    · exact ⟨m,log,hlog,hopened,fun _ _ h => by cases h⟩

theorem module_rest [Resources] {name : Text} {source : List Text} {v : Module} {s' : State}
    (h : module name source s = .ok v s') : s'.rest = [] := by
  rw [module_run] at h
  split at h
  · cases h
  · split at h
    · rename_i hrest
      cases h
      exact List.isEmpty_iff.mp hrest
    · cases h

theorem definitions_by_line [Resources] (hs : At ts n s) (ht : ts[n]? = some t) :
    definitions region exporting s =
      (if t.is .op "@" && opensLine ts n then do
          consume .op
          decorators
          definitions region exporting
        else definitionsAt definitions region exporting false t)
        { s with notes := .definitions t (opensLine ts n) :: s.notes } := by
  rw [definitions_at hs ht,hs.fresh_eq]
  cases hmark : t.is .op "@" && opensLine ts n with
  | true =>
    have hvalue : (t.value == exportName) = false := by
      rw [value_of_is ((Bool.and_eq_true _ _).mp hmark).1]
      rfl
    simp only [definitionsAt,hvalue,hmark,Bool.and_false,Bool.false_eq_true,if_false,if_true]
  | false => simp only [definitionsAt,hmark,Bool.and_false,Bool.false_eq_true,if_false]

/-- While a token is current, a statement may open exactly if a logical line does. The reader of definitions
begins decorators at an `@` where one opens, and goes on as if there were none at any other token; so its notes
tell of every run, which has a turn at each token but those of the opening and of the pieces read. No
multiplication opens a line. -/
theorem decorators_open_lines [Resources] {s₀ : State} (h : State.ofTokens? ts = some s₀) :
    (∀ n, n ≤ ts.length → ∃ s, takeTokens n s₀ = .ok () s ∧ At ts n s ∧ s.fresh = opensLine ts n) ∧
    (∀ n s t, At ts n s → ts[n]? = some t → ∀ region exporting, definitions region exporting s =
      (if t.is .op "@" && opensLine ts n then do
          consume .op
          decorators
          definitions region exporting
        else definitionsAt definitions region exporting false t)
        { s with notes := .definitions t (opensLine ts n) :: s.notes }) ∧
    (∀ name source, ∃ n m, Through ts 0 n isPreliminary ∧
      Journal ts n m (resultState (module name source s₀)).notes.reverse ∧
      ∀ v s, module name source s₀ = .ok v s → m = ts.length) ∧
    ∀ n, Multiplies ts n → opensLine ts n = false := by
  have hs₀ : At ts 0 s₀ := State.ofTokens?_at h
  refine ⟨fun n hn => ?_,fun n s t hs ht region exporting => definitions_by_line hs ht,?_,
    fun n hn => hn.not_opensLine⟩
  · obtain ⟨s,hrun,hs⟩ := takeTokens_at hs₀ (Nat.zero_add n ▸ hn)
    rw [Nat.zero_add] at hs
    exact ⟨s,hrun,hs,hs.fresh_eq⟩
  · intro name source
    have hnotes : s₀.notes = [] := by
      cases ts with
      | nil => cases h
      | cons t ts =>
        cases h
        rfl
    obtain ⟨m,log,hlog,⟨n,hopening,hjournal⟩,hok⟩ := module_writes name source s₀ hs₀
    rw [hnotes,List.append_nil] at hlog
    refine ⟨n,m,hopening,?_,fun v s hrun => ?_⟩
    · rwa [hlog,List.reverse_reverse]
    · have hs := hok v s hrun
      have hdrop : ts.drop m = [] := hs.rest ▸ module_rest hrun
      exact Nat.le_antisymm hs.le (List.drop_eq_nil_iff.mp hdrop)

def products : Text := "a @ b\n(a\n# c\n\n@ b)\n# d\n@ a\ndef b(): pass\n"

open Resources.Builtin

theorem decorators_open_lines_products : ∃ s₀ v s,
    State.ofTokens? (Scan.ofText products).tokens = some s₀ ∧
    module "a.py" products.lines s₀ = .ok v s ∧
    v.children.map (fun d => d.decorators.map Decorator.name) = [["a".toList]] ∧
    (∃ n, Journal (Scan.ofText products).tokens n (Scan.ofText products).tokens.length s.notes.reverse) ∧
    Multiplies (Scan.ofText products).tokens 10 ∧
    (∃ s', takeTokens 10 s₀ = .ok () s' ∧ s'.fresh = false) ∧
    ∃ s', takeTokens 16 s₀ = .ok () s' ∧ s'.fresh = true := by
  have hread : readsTo (Scan.ofText products).tokens (module "a.py" products.lines) (fun v _ =>
      v.children.map (fun d => d.decorators.map Decorator.name) == [["a".toList]]) = true := by
    decide +kernel
  have hproduct : (∃ t ∈ (Scan.ofText products).tokens[10]?, t.is .op "@" = true) ∧
      (∃ t ∈ (Scan.ofText products).tokens[5]?, t.kind = .name) ∧
      Through (Scan.ofText products).tokens 6 10 (fun u => u.kind = .nl ∨ u.kind = .comment) ∧
      opensLine (Scan.ofText products).tokens 16 = true ∧ 16 ≤ (Scan.ofText products).tokens.length := by
    decide +kernel
  obtain ⟨s₀,v,s,hs₀,hrun,hnames⟩ := exists_of_readsTo hread
  obtain ⟨⟨t,ht,hop⟩,⟨u,hu,hname⟩,hblank,hopens,hlen⟩ := hproduct
  obtain ⟨hflag,-,hjournal,hmultiplies⟩ := decorators_open_lines hs₀
  have htimes : Multiplies (Scan.ofText products).tokens 10 :=
    ⟨⟨t,ht,hop⟩,5,u,by decide,hu,by rw [hname]; rfl,hblank⟩
  obtain ⟨n,m,-,hj,hm⟩ := hjournal "a.py" products.lines
  rw [hrun,hm v s hrun] at hj
  obtain ⟨s₁,hrun₁,-,hfresh₁⟩ := hflag 10 (by omega)
  obtain ⟨s₂,hrun₂,-,hfresh₂⟩ := hflag 16 hlen
  exact ⟨s₀,v,s,hs₀,hrun,beq_iff_eq.mp hnames,⟨n,hj⟩,htimes,
    ⟨s₁,hrun₁,hfresh₁.trans (hmultiplies 10 htimes)⟩,⟨s₂,hrun₂,hfresh₂.trans hopens⟩⟩

end DocLint.Outline
