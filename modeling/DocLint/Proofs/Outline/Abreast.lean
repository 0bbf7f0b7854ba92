import Mathlib.Data.List.Forall2
import DocLint.Proofs.Outline.Turns
import DocLint.Proofs.Token.Recased

/-!
Two runs over tokens that are alike but for the value of one string. What is read goes the same way in both,
and no value comes out differently, as long as this string is taken by nothing but the reader of docstrings.
A run in which something else has taken it will never note that it is read as a docstring.
-/

set_option autoImplicit false

namespace DocLint

theorem Lexeme.IsQuoted.ne {v w : Text} (h : IsQuoted v) (hw : w.all (!isQuote ·) = true) : v ≠ w := by
  rintro rfl
  obtain ⟨mark,q,rest,rfl,-,hq⟩ := h
  have := List.all_eq_true.mp hw q (by simp)
  simp [hq] at this

/-- A string, and another value of a string. -/
structure Respoken (t : Token) (v : Text) : Prop where
  kind : t.kind = .string
  quoted : Lexeme.IsQuoted t.value
  spoken : Lexeme.IsQuoted v

namespace Token.Twin

variable {t u u' : Token} {v : Text}

theorem of (u : Token) : Twin t v u { u with value := if u = t then v else u.value } := ⟨rfl,rfl,rfl,rfl⟩

theorem eq_of_ne (h : Twin t v u u') (hu : u ≠ t) : u' = { u with line := u'.line } := by
  have hvalue := h.value
  rw [if_neg hu] at hvalue
  rw [← h.kind,← h.start,← h.stop,← hvalue]

theorem value_iff (h : Twin t v u u') (ht : Respoken t v) {w : Text} (hw : w.all (!Lexeme.isQuote ·) = true) :
    u'.value = w ↔ u.value = w := by
  rw [h.value]
  split
  · rename_i hu
    subst hu
    exact ⟨fun e => absurd e (ht.spoken.ne hw),fun e => absurd e (ht.quoted.ne hw)⟩
  · rfl

theorem value_eq (h : Twin t v u u') (ht : Respoken t v) (hk : u.kind ≠ .string) : u'.value = u.value := by
  rw [h.value,if_neg]
  rintro rfl
  exact hk ht.kind

theorem is_eq (h : Twin t v u u') (ht : Respoken t v) (k : TokenKind) {w : Text}
    (hw : w.all (!Lexeme.isQuote ·) = true) : u'.is k w = u.is k w := by
  rw [Token.is,Token.is,h.kind,Bool.eq_iff_iff]
  simp only [Bool.and_eq_true,beq_iff_eq,h.value_iff ht hw]

theorem contains_eq (h : Twin t v u u') (ht : Respoken t v) {ws : List Text}
    (hws : ws.all (·.all (!Lexeme.isQuote ·)) = true) : ws.contains u'.value = ws.contains u.value := by
  induction ws with
  | nil => rfl
  | cons w ws ih =>
    simp only [List.all_cons,Bool.and_eq_true] at hws
    rw [List.contains_cons,List.contains_cons,ih hws.2,Bool.eq_iff_iff]
    simp only [Bool.or_eq_true,beq_iff_eq,h.value_iff ht hws.1]

theorem isFiller_eq (h : Twin t v u u') : Outline.isFiller u' = Outline.isFiller u := by
  rw [Outline.isFiller,Outline.isFiller,h.kind]

end Token.Twin

namespace Outline

variable {α β : Type} {t u u' : Token} {v : Text}

/-- Two states with the same in front of them, but for the value of one string, which is there once. -/
structure Beside (t : Token) (v : Text) (s s' : State) : Prop where
  rest : List.Forall₂ (t.Twin v) s.rest s'.rest
  once : s.rest.Pairwise fun u w => u = t → w ≠ t
  line : s'.line = s.line
  fresh : s'.fresh = s.fresh
  pending : s'.pending = s.pending
  exports : s'.exports = s.exports
  exportFault : s'.exportFault = s.exportFault
  features : s'.features = s.features

/-- Two such states between readers: a string that is still in front has not been read. -/
structure Abreast (t : Token) (v : Text) (s s' : State) : Prop extends Beside t v s s' where
  unread : t ∈ s.rest → Note.docstring (some t) ∉ s.notes

structure Spoiled (t : Token) (s : State) : Prop where
  taken : t ∉ s.rest
  unread : Note.docstring (some t) ∉ s.notes

abbrev Spoils (t : Token) (r : Reader α) : Prop := Ensures (Spoiled t) r fun _ => Spoiled t

def Follows (t : Token) (v : Text) (R : α → α → Prop) (r r' : Reader α) (s s' : State) : Prop :=
  ∀ a s₁, r s = .ok a s₁ →
    (∃ a' s₁', r' s' = .ok a' s₁' ∧ Abreast t v s₁ s₁' ∧ R a a') ∨ Spoiled t s₁

structure Parallel (t : Token) (v : Text) (R : α → α → Prop) (r r' : Reader α) : Prop where
  follows : ∀ s s', Abreast t v s s' → Follows t v R r r' s s'
  spoils : Spoils t r

abbrev Undisturbed (t : Token) (v : Text) (r : Reader α) : Prop := Parallel t v Eq r r

/-- The same from states in which a token is known to come next. -/
structure Before (t : Token) (v : Text) (u : Token) (R : α → α → Prop) (r r' : Reader α) : Prop where
  follows : ∀ s s', Abreast t v s s' → s.rest.head? = some u → Follows t v R r r' s s'
  spoils : Spoils t r

variable {s s' s₁ : State} {R : α → α → Prop} {Q : β → β → Prop} {r r' : Reader α}

theorem Beside.advance {us us' : List Token} (h : Beside t v s s') (hrest : s.rest = u :: us)
    (hrest' : s'.rest = u' :: us') : t.Twin v u u' ∧ Beside t v (s.advance u us) (s'.advance u' us') := by
  have hall := h.rest
  rw [hrest,hrest',List.forall₂_cons] at hall
  have honce := h.once
  rw [hrest] at honce
  refine ⟨hall.1,hall.2,honce.of_cons,?_,?_,h.pending,h.exports,h.exportFault,h.features⟩
  · cases hall.2 with
    | nil => exact h.line
    | cons htwin _ => exact congrArg Position.row htwin.start
  · simp only [State.advance,hall.1.kind,h.fresh]

/-- Behind the string that comes next, the runs are spoiled. -/
theorem Abreast.spoiled {us : List Token} (h : Abreast t v s s') (hrest : s.rest = t :: us) :
    Spoiled t (s.advance t us) := by
  have honce := h.once
  rw [hrest,List.pairwise_cons] at honce
  exact ⟨fun ht => honce.1 t ht rfl rfl,h.unread (by simp [hrest])⟩

theorem Abreast.noting {e : Note} (h : Abreast t v s s') (he : e ≠ .docstring (some t)) (e' : Note) :
    Abreast t v { s with notes := e :: s.notes } { s' with notes := e' :: s'.notes } :=
  { h with unread := fun ht => by simpa using ⟨he.symm,h.unread ht⟩ }

theorem Spoiled.noting {e : Note} (h : Spoiled t s) (he : e ≠ .docstring (some t)) :
    Spoiled t { s with notes := e :: s.notes } :=
  ⟨h.taken,by simpa using ⟨he.symm,h.unread⟩⟩

theorem Spoiled.advance {us : List Token} (h : Spoiled t s) (hrest : s.rest = u :: us) :
    Spoiled t (s.advance u us) := by
  refine ⟨fun ht => h.taken ?_,h.unread⟩
  rw [hrest]
  exact List.mem_cons_of_mem u ht

theorem move_eq_ok {a : Token} (h : move s = .ok a s₁) : ∃ us, s.rest = a :: us ∧ s₁ = s.advance a us := by
  rw [show move s = _ from bind_of_ok _ (rfl : (get : Reader State) s = .ok s s)] at h
  cases hrest : s.rest with
  | nil =>
    rw [hrest] at h
    cases h
  | cons x us =>
    rw [hrest] at h
    cases h
    exact ⟨us,rfl,rfl⟩

theorem move_of_cons {us : List Token} (h : s.rest = u :: us) : move s = .ok u (s.advance u us) := by
  rw [show move s = _ from bind_of_ok _ (rfl : (get : Reader State) s = .ok s s),h]
  rfl

namespace Parallel

variable {f f' : α → Reader β}

theorem pure {a a' : α} (h : R a a') : Parallel t v R (pure a) (pure a') := by
  refine ⟨fun s s' hs => ?_,Ensures.pure fun _ h => h⟩
  rintro _ _ ⟨⟩
  exact .inl ⟨a',s',rfl,hs,h⟩

theorem throw (e e' : Fault) : Parallel t v R (throw e) (throw e') := by
  refine ⟨fun s s' hs => ?_,Ensures.throw e⟩
  rintro _ _ ⟨⟩

theorem bind (hr : Parallel t v R r r') (hR : ∀ a, R a a)
    (hf : ∀ a a', R a a' → Parallel t v Q (f a) (f' a')) : Parallel t v Q (r >>= f) (r' >>= f') := by
  have hspoils (a : α) : Spoils t (f a) := (hf a a (hR a)).spoils
  refine ⟨fun s s' hs b s₁ hrun => ?_,hr.spoils.bind hspoils⟩
  obtain ⟨a,s₂,ha,hrun⟩ := bind_eq_ok hrun
  rcases hr.follows s s' hs a s₂ ha with ⟨a',s₂',ha',hs₂,haa'⟩ | hspoiled
  · rw [bind_of_ok f' ha']
    exact (hf a a' haa').follows s₂ s₂' hs₂ b s₁ hrun
  · exact .inr (hspoils a s₂ b s₁ hspoiled hrun)

theorem seq (hr : Parallel t v Eq r r') (hf : ∀ a, Parallel t v Q (f a) (f' a)) :
    Parallel t v Q (r >>= f) (r' >>= f') := by
  refine hr.bind (fun _ => rfl) ?_
  rintro a _ rfl
  exact hf a

theorem throw_bind (e e' : Fault) : Parallel t v Q ((MonadExcept.throw e : Reader α) >>= f)
    ((MonadExcept.throw e' : Reader α) >>= f') := by
  refine ⟨fun s s' hs b s₁ hrun => ?_,Ensures.throw_bind⟩
  obtain ⟨_,_,hthrown,_⟩ := bind_eq_ok hrun
  cases hthrown

theorem get_bind {f f' : State → Reader β} (hf : ∀ s s', Abreast t v s s' → Parallel t v Q (f s) (f' s'))
    (hspoils : ∀ s, Spoils t (f s)) : Parallel t v Q (get >>= f) (get >>= f') :=
  ⟨fun s s' hs => (hf s s' hs).follows s s' hs,fun s b s₁ hs hrun => hspoils s s b s₁ hs hrun⟩

theorem line_bind {f f' : Nat → Reader β} (hf : ∀ x, Parallel t v Q (f x) (f' x)) :
    Parallel t v Q (line >>= f) (line >>= f') := by
  refine ⟨fun s s' hs b s₁ hrun => ?_,fun s b s₁ hs hrun => (hf s.line).spoils s b s₁ hs hrun⟩
  have h := (hf s.line).follows s s' hs b s₁ hrun
  rw [← hs.line] at h
  exact h

theorem note_bind {e e' : Note} {f f' : Unit → Reader β} (he : e ≠ .docstring (some t))
    (hf : Parallel t v Q (f ()) (f' ())) : Parallel t v Q (note e >>= f) (note e' >>= f') :=
  ⟨fun s s' hs => hf.follows _ _ (hs.noting he e'),fun s b s₁ hs hrun => hf.spoils _ b s₁ (hs.noting he) hrun⟩

theorem modify {g : State → State} (hg : ∀ s s', Abreast t v s s' → Abreast t v (g s) (g s'))
    (hspoils : ∀ s, (g s).rest = s.rest ∧ (g s).notes = s.notes) :
    Undisturbed t v (modify g) := by
  refine ⟨fun s s' hs => ?_,Ensures.modify fun s hs => ?_⟩
  · rintro _ _ ⟨⟩
    exact .inl ⟨(),g s',rfl,hg s s' hs,rfl⟩
  · obtain ⟨hrest,hnotes⟩ := hspoils s
    exact ⟨hrest ▸ hs.taken,hnotes ▸ hs.unread⟩

theorem before (h : Parallel t v R r r') (u : Token) : Before t v u R r r' :=
  ⟨fun s s' hs _ => h.follows s s' hs,h.spoils⟩

theorem current?_bind {f f' : Option Token → Reader β} (hnone : Parallel t v Q (f none) (f' none))
    (hsome : ∀ u u', t.Twin v u u' → Before t v u Q (f (some u)) (f' (some u'))) :
    Parallel t v Q (current? >>= f) (current? >>= f') := by
  refine ⟨fun s s' hs b s₁ hrun => ?_,fun s b s₁ hs hrun => ?_⟩
  · change f s.rest.head? s = .ok b s₁ at hrun
    change (∃ b' s₁', f' s'.rest.head? s' = .ok b' s₁' ∧ _) ∨ _
    have hrest := hs.rest
    cases hr : s.rest with
    | nil =>
      rw [hr] at hrest hrun
      rw [List.forall₂_nil_left_iff.mp hrest]
      exact hnone.follows s s' hs b s₁ hrun
    | cons u us =>
      rw [hr] at hrest hrun
      obtain ⟨u',us',htwin,-,hr'⟩ := List.forall₂_cons_left_iff.mp hrest
      rw [hr']
      exact (hsome u u' htwin).follows s s' hs (by rw [hr]; rfl) b s₁ hrun
  · change f s.rest.head? s = .ok b s₁ at hrun
    cases hr : s.rest with
    | nil =>
      rw [hr] at hrun
      exact hnone.spoils s b s₁ hs hrun
    | cons u us =>
      rw [hr] at hrun
      exact (hsome u _ (Token.Twin.of u)).spoils s b s₁ hs hrun

theorem current_bind {f f' : Token → Reader β}
    (hf : ∀ u u', t.Twin v u u' → Before t v u Q (f u) (f' u')) :
    Parallel t v Q (current >>= f) (current >>= f') := by
  unfold current
  simp only [bind_assoc]
  refine current?_bind (throw_bind _ _) fun u u' hu => ?_
  simp only [pure_bind]
  exact hf u u' hu

/-- The token in front is only looked at. -/
theorem looking {f f' : Token → Reader β} (hf : ∀ u u', t.Twin v u u' → Parallel t v Q (f u) (f' u')) :
    Parallel t v Q (current >>= f) (current >>= f') :=
  current_bind fun u u' hu => (hf u u' hu).before u

theorem taking {f f' : Token → Reader β} (hf : ∀ u u', t.Twin v u u' → Parallel t v Q (f u) (f' u')) :
    Parallel t v Q (move >>= f) (move >>= f') := by
  have hspoils (u : Token) : Spoils t (f u) := (hf u _ (Token.Twin.of u)).spoils
  refine ⟨fun s s' hs b s₁ hrun => ?_,fun s b s₁ hs hrun => ?_⟩
  · obtain ⟨u,s₂,hmove,hrun⟩ := bind_eq_ok hrun
    obtain ⟨us,hrest,rfl⟩ := move_eq_ok hmove
    obtain ⟨u',us',htwin,-,hrest'⟩ := List.forall₂_cons_left_iff.mp (hrest ▸ hs.rest)
    by_cases hu : u = t
    · subst hu
      exact .inr (hspoils u _ b s₁ (hs.spoiled hrest) hrun)
    · rw [bind_of_ok _ (move_of_cons hrest')]
      refine (hf u u' htwin).follows _ _ ⟨(hs.advance hrest hrest').2,fun ht => hs.unread ?_⟩ b s₁ hrun
      rw [hrest]
      exact List.mem_cons_of_mem u ht
  · obtain ⟨u,s₂,hmove,hrun⟩ := bind_eq_ok hrun
    obtain ⟨us,hrest,rfl⟩ := move_eq_ok hmove
    exact hspoils u _ b s₁ (hs.advance hrest) hrun

theorem move_bind {f f' : Reader β} (hf : Parallel t v Q f f') :
    Parallel t v Q (move >>= fun _ => f) (move >>= fun _ => f') := taking fun _ _ _ => hf

theorem consume_bind {kind : TokenKind} {f f' : Unit → Reader β} (hf : Parallel t v Q (f ()) (f' ())) :
    Parallel t v Q (consume kind >>= f) (consume kind >>= f') := by
  have hkind {u u' : Token} (hu : u'.kind = u.kind) : Parallel t v Q
      ((if u.kind ≠ kind then MonadExcept.throw (.unexpected u kind) else Pure.pure ()) >>= f)
      ((if u'.kind ≠ kind then MonadExcept.throw (.unexpected u' kind) else Pure.pure ()) >>= f') := by
    rw [hu]
    split
    · exact throw_bind _ _
    · exact hf
  unfold consume
  simp only [bind_assoc]
  exact taking fun u u' hu => hkind hu.kind

theorem consume {kind : TokenKind} : Undisturbed t v (consume kind) := by
  have h : Undisturbed t v (Outline.consume kind >>= Pure.pure) :=
    consume_bind (pure rfl)
  rwa [bind_pure] at h

theorem note {e e' : Note} (he : e ≠ .docstring (some t)) : Parallel t v Eq (note e) (note e') := by
  have h : Parallel t v Eq (Outline.note e >>= Pure.pure) (Outline.note e' >>= Pure.pure) :=
    note_bind he (pure rfl)
  rwa [bind_pure,bind_pure] at h

theorem loop {step : α → Reader (α ⊕ β)} (h : ∀ a, Undisturbed t v (step a)) (a : α) :
    Undisturbed t v (loop step a) := by
  suffices hrep : ∀ fuel a, Undisturbed t v (repeating step fuel a) by
    refine get_bind (fun s s' hs => ?_) fun s => (hrep _ a).spoils
    rw [← hs.rest.length_eq]
    exact hrep _ a
  intro fuel
  induction fuel with
  | zero => exact fun _ => throw _ _
  | succ fuel ih =>
    refine fun a => (h a).seq fun x => ?_
    cases x with
    | inl a => exact ih a
    | inr b => exact pure rfl

end Parallel

namespace Before

/-- Behind a token that is taken, the rest may depend on its value. -/
theorem take {f f' : Reader β} (hf : u ≠ t → Parallel t v Q f f') (hspoils : Spoils t f) :
    Before t v u Q (move >>= fun _ => f) (move >>= fun _ => f') := by
  refine ⟨fun s s' hs hhead b s₁ hrun => ?_,fun s b s₁ hs hrun => ?_⟩
  · by_cases hu : u = t
    · subst hu
      obtain ⟨u',s₂,hmove,hrun⟩ := bind_eq_ok hrun
      obtain ⟨us,hrest,rfl⟩ := move_eq_ok hmove
      rw [hrest] at hhead
      cases hhead
      exact .inr (hspoils _ b s₁ (hs.spoiled hrest) hrun)
    · exact (Parallel.move_bind (hf hu)).follows s s' hs b s₁ hrun
  · obtain ⟨u',s₂,hmove,hrun⟩ := bind_eq_ok hrun
    obtain ⟨us,hrest,rfl⟩ := move_eq_ok hmove
    exact hspoils _ b s₁ (hs.advance hrest) hrun

theorem note_bind {e e' : Note} {f f' : Unit → Reader β} (he : e ≠ .docstring (some t))
    (hf : Before t v u Q (f ()) (f' ())) : Before t v u Q (note e >>= f) (note e' >>= f') :=
  ⟨fun s s' hs => hf.follows _ _ (hs.noting he e'),fun s b s₁ hs hrun => hf.spoils _ b s₁ (hs.noting he) hrun⟩

end Before

/-! ### Readers around definitions -/

section Readers

variable (ht : Respoken t v)

include ht

theorem skipComment_parallel : Undisturbed t v skipComment := by
  refine Parallel.loop (fun _ => Parallel.looking fun u u' hu => ?_) ()
  rw [hu.isFiller_eq]
  split
  · rename_i hfiller
    have hskipped : skippedAt u' = skippedAt u := by
      unfold skippedAt
      rw [hu.kind]
      split
      · rename_i hk
        rw [hu.value_eq ht (by simp [hk])]
      · rfl
    rw [hskipped]
    exact Parallel.move_bind (Parallel.current_bind fun w w' _ =>
      Before.note_bind (by simp) ((Parallel.pure rfl).before w))
  · exact Parallel.pure rfl

theorem leapfrog_parallel (kind : TokenKind) {w : Option Text} (hw : w.all (·.all (!Lexeme.isQuote ·)) = true) :
    Undisturbed t v (leapfrog kind w) := by
  refine Parallel.loop (fun _ => Parallel.current?_bind (Parallel.pure rfl) fun u u' hu => ?_) ()
  have hmatches : Token.matches u' kind w = Token.matches u kind w := by
    cases w with
    | none => simp [Token.matches,hu.kind]
    | some w => exact hu.is_eq ht kind hw
  dsimp only
  rw [hmatches]
  exact (Parallel.move_bind (Parallel.pure rfl)).before u

theorem decorators_parallel : Undisturbed t v decorators := by
  have hadd (d : Decorator) : Undisturbed t v (addDecorator d) :=
    Parallel.modify (fun s s' hs => { hs with pending := by rw [hs.pending] }) fun _ => ⟨rfl,rfl⟩
  refine Parallel.loop (fun d => Parallel.current?_bind ?_ fun u u' hu => ?_) _
  · exact (hadd d.close).seq fun _ => Parallel.pure rfl
  · have hopens : opensDecorated u' = opensDecorated u := by
      rw [opensDecorated,opensDecorated,hu.kind,hu.contains_eq ht (by decide)]
    refine Before.note_bind (by simp) ?_
    rw [hopens,hu.is_eq ht .op (by decide)]
    split
    · exact ((hadd d.close).seq fun _ => Parallel.pure rfl).before u
    · split
      · exact ((hadd d.close).seq fun _ => Parallel.move_bind (Parallel.pure rfl)).before u
      · refine Before.take (fun hne => ?_) (Ensures.pure fun _ h => h)
        rw [hu.eq_of_ne hne]
        exact Parallel.pure rfl

/-! ### Exported names -/

theorem exportContent_parallel (surrounded : Bool) :
    Undisturbed t v (exportContent surrounded) := by
  refine Parallel.loop (fun content => Parallel.current_bind fun u u' hu => ?_) []
  have hcomma : u'.value = ",".toList ↔ u.value = ",".toList := hu.value_iff ht (by decide)
  simp only [hu.contains_eq ht (show closingBrackets.all (·.all (!Lexeme.isQuote ·)) = true by decide),hu.kind,
    hcomma]
  split
  · exact (Parallel.pure rfl).before u
  · split
    · exact (Parallel.pure rfl).before u
    · split
      · exact (Parallel.move_bind (Parallel.pure rfl)).before u
      · split
        · refine Before.take (fun hne => ?_) (Ensures.pure fun _ h => h)
          rw [hu.eq_of_ne hne]
          exact Parallel.pure rfl
        · exact (Parallel.pure rfl).before u

omit ht in
theorem refuseExports_parallel (fault : ExportFault) :
    Undisturbed t v (refuseExports fault) :=
  Parallel.modify (fun _ _ hs => { hs with exports := rfl, exportFault := rfl }) fun _ => ⟨rfl,rfl⟩

omit ht in
theorem failExports_parallel (fault : ExportFault) :
    Undisturbed t v (modify fun s : State => { s with exportFault := some fault }) :=
  Parallel.modify (fun _ _ hs => { hs with exportFault := rfl }) fun _ => ⟨rfl,rfl⟩

omit ht in
theorem exportsEnd_parallel : Undisturbed t v exportsEnd := by
  refine Parallel.loop (fun _ => Parallel.looking fun u u' hu => ?_) ()
  rw [hu.kind]
  split
  · exact Parallel.pure rfl
  · split
    · exact Parallel.move_bind (Parallel.pure rfl)
    · exact (refuseExports_parallel _).seq fun _ => Parallel.pure rfl

omit ht in
theorem evaluateExports_parallel [Resources] (content : Text) :
    Undisturbed t v (evaluateExports content) := by
  refine Parallel.modify (fun s s' hs => ?_) fun s => ?_
  · cases Exports.evaluate content with
    | ok e => exact { hs with exports := rfl }
    | error e => exact { hs with exportFault := rfl }
  · cases Exports.evaluate content <;> exact ⟨rfl,rfl⟩

theorem exportedContent_parallel [Resources] (surrounded : Bool) :
    Undisturbed t v (exportedContent surrounded) := by
  refine (exportContent_parallel ht surrounded).seq fun content => ?_
  cases content with
  | none => exact failExports_parallel _
  | some content =>
    have hrest : Undisturbed t v (do
        if !surrounded && !content.contains ',' then
          let kind := (← current).kind
          modify fun s => { s with exportFault := some (.unexpectedKind kind) }
        else
          evaluateExports content
          exportsEnd) := by
      split
      · refine Parallel.looking fun u u' hu => ?_
        rw [hu.kind]
        exact failExports_parallel _
      · exact (evaluateExports_parallel content).seq fun _ => exportsEnd_parallel
    dsimp only
    split
    · exact Parallel.consume_bind hrest
    · exact hrest

theorem exportStatement_parallel [Resources] : Undisturbed t v exportStatement := by
  have hnames : Undisturbed t v exportedNames := by
    refine Parallel.consume_bind (Parallel.looking fun u u' hu => ?_)
    rw [hu.contains_eq ht (by decide)]
    dsimp only
    split
    · exact Parallel.consume_bind (exportedContent_parallel ht _)
    · exact exportedContent_parallel ht _
  have hstated : Undisturbed t v (do
      if (← current).value ≠ "=".toList then modify fun s => { s with exportFault := some .unclear }
      else exportedNames) := by
    refine Parallel.looking fun u u' hu => ?_
    simp only [ne_eq,hu.value_iff ht (show "=".toList.all (!Lexeme.isQuote ·) = true by decide)]
    split
    · exact failExports_parallel _
    · exact hnames
  refine Parallel.looking fun u u' hu => ?_
  simp only [ne_eq,hu.value_iff ht (show exportName.all (!Lexeme.isQuote ·) = true by decide)]
  split
  · exact Parallel.throw_bind _ _
  · refine Parallel.consume_bind (Parallel.get_bind (fun s s' hs => ?_) fun s => ?_)
    · rw [hs.exports,hs.exportFault]
      split
      · exact refuseExports_parallel _
      · exact hstated
    · split
      · exact (refuseExports_parallel (v := v) _).spoils
      · exact hstated.spoils

/-! ### Imports -/

theorem importSource_parallel : Undisturbed t v importSource := by
  have hloop (isFeature : Bool) : Undisturbed t v (loop (importSourceStep isFeature) ()) := by
    refine Parallel.loop (fun _ => Parallel.current?_bind (Parallel.pure rfl) fun u u' hu =>
      Parallel.before ?_ u) ()
    simp only [hu.value_iff ht (show "import".toList.all (!Lexeme.isQuote ·) = true by decide),hu.kind]
    split
    · exact Parallel.move_bind (Parallel.pure rfl)
    · split
      · exact Parallel.move_bind (Parallel.pure rfl)
      · exact Parallel.pure rfl
  refine Parallel.looking fun u u' hu => ?_
  simp only [ne_eq,hu.value_iff ht (show "from".toList.all (!Lexeme.isQuote ·) = true by decide)]
  split
  · exact Parallel.throw_bind _ _
  · refine Parallel.move_bind (Parallel.looking fun w w' hw => ?_)
    have hfeature : (w'.value == "__future__".toList) = (w.value == "__future__".toList) := by
      rw [Bool.eq_iff_iff,beq_iff_eq,beq_iff_eq,hw.value_iff ht (by decide)]
    rw [hfeature]
    exact Parallel.move_bind (hloop _)

theorem importedName_parallel {isFeature : Bool} (hu : t.Twin v u u') (hk : u.kind = .name) :
    Parallel t v Eq (importedName isFeature u) (importedName isFeature u') := by
  have hcomma : Undisturbed t v importedComma := by
    refine Parallel.looking fun w w' hw => ?_
    simp only [hw.value_iff ht (show ",".toList.all (!Lexeme.isQuote ·) = true by decide)]
    split
    · exact Parallel.consume
    · exact Parallel.pure rfl
  have halias : Undisturbed t v importedAlias := by
    refine Parallel.looking fun w w' hw => ?_
    rw [hw.is_eq ht .name (by decide)]
    split
    · refine Parallel.consume_bind (Parallel.looking fun x x' hx => ?_)
      rw [hx.kind]
      split
      · exact Parallel.consume
      · exact Parallel.pure rfl
    · exact Parallel.pure rfl
  have hrest : Undisturbed t v (do
      consume .name
      note (.imported (← current))
      importedAlias
      importedComma
      note (.imported (← current))) := by
    refine Parallel.consume_bind (Parallel.current_bind fun w w' _ => Before.note_bind (by simp)
      (Parallel.before ?_ w))
    refine halias.seq fun _ => hcomma.seq fun _ => Parallel.looking fun x x' _ => ?_
    exact Parallel.note (by simp)
  unfold importedName
  refine Parallel.note_bind (by simp) ?_
  rw [hu.value_eq ht (by simp [hk])]
  split
  · refine Parallel.seq (Parallel.note_bind (by simp) (Parallel.modify (fun s s' hs => ?_) fun s => ?_))
      fun _ => hrest
    · rw [hs.features]
      split
      · exact hs
      · exact { hs with features := rfl }
    · split <;> exact ⟨rfl,rfl⟩
  · exact hrest

theorem fromImport_parallel : Undisturbed t v fromImport := by
  have hloop (isFeature bracketed : Bool) : Undisturbed t v (loop (importedNamesStep isFeature bracketed) ()) := by
    refine Parallel.loop (fun _ => Parallel.looking fun u u' hu => ?_) ()
    have hends : endsImport bracketed u' = endsImport bracketed u := by
      rw [endsImport,endsImport,hu.kind,hu.is_eq ht .op (by decide)]
    rw [hends,hu.kind]
    split
    · exact Parallel.pure rfl
    · split
      · rename_i hk
        exact (importedName_parallel ht hu hk).seq fun _ => Parallel.pure rfl
      · exact Parallel.move_bind (Parallel.pure rfl)
  refine Parallel.note_bind (by simp) ((importSource_parallel ht).seq fun isFeature => ?_)
  refine Parallel.looking fun u u' hu => ?_
  have hbracket : (u'.value == "(".toList) = (u.value == "(".toList) := by
    rw [Bool.eq_iff_iff,beq_iff_eq,beq_iff_eq,hu.value_iff ht (by decide)]
  rw [hbracket]
  dsimp only
  split
  · exact Parallel.consume_bind (hloop _ _)
  · exact hloop _ _

/-! ### Headers and docstrings -/

theorem headerEnd_parallel : Undisturbed t v headerEnd := by
  have hcolon : Undisturbed t v (do
      if (← current).is .op ":" then consume .op else leapfrog .op (some ":")) := by
    refine Parallel.looking fun u u' hu => ?_
    rw [hu.is_eq ht .op (by decide)]
    split
    · exact Parallel.consume
    · exact leapfrog_parallel ht .op (by decide)
  have hparameters : Undisturbed t v parameters := by
    refine Parallel.loop (fun _ => Parallel.looking fun u u' hu => ?_) _
    rw [hu.is_eq ht .op (by decide),hu.is_eq ht .op (by decide)]
    split
    · exact Parallel.pure rfl
    · exact Parallel.move_bind (Parallel.pure rfl)
  refine Parallel.looking fun u u' hu => ?_
  rw [hu.is_eq ht .op (by decide)]
  split
  · exact hparameters.seq fun _ => hcolon
  · exact hcolon

omit ht in
theorem takePending_parallel : Undisturbed t v takePending := by
  have hrest (ds : List Decorator) : Undisturbed t v (do
      note (.pending ds)
      modify fun s => { s with pending := [] }
      return ds) := by
    refine Parallel.note_bind (by simp) (Parallel.seq (Parallel.modify (fun _ _ hs => ?_) fun _ => ?_) fun _ => ?_)
    · exact { hs with pending := rfl }
    · exact ⟨rfl,rfl⟩
    · exact Parallel.pure rfl
  refine Parallel.get_bind (fun s s' hs => ?_) fun s => (hrest s.pending).spoils
  rw [hs.pending]
  exact hrest s.pending

end Readers

/-- The string, read as a docstring, has the one value in the one run and the other in the other. -/
def Echoes (t : Token) (v : Text) (d d' : Option Docstring) : Prop :=
  d' = d ∨ d = docstringOf t ∧ d' = docstringOf { t with value := v }

theorem docstringStep_run (s : State) : docstringStep () s = match s.rest with
    | [] => .error .noToken s
    | u :: us =>
      if isFiller u then
        match us with
        | [] => .error .noToken (s.advance u us)
        | w :: _ => .ok (.inl ()) { s.advance u us with notes := .docstring (some w) :: s.notes }
      else if u.kind = .string then .ok (.inr (docstringOf u)) (s.advance u us)
      else .ok (.inr none) s := by
  obtain ⟨rest,_,_,_,_,_,_,_⟩ := s
  cases rest with
  | nil => rfl
  | cons u us =>
    rw [docstringStep,bind_of_ok _ (rfl : current _ = .ok u _)]
    dsimp only
    split
    · cases us <;> rfl
    · split
      · rename_i hk
        rw [docstringOf,if_pos hk]
        rfl
      · rfl

theorem docstringOf_echoes {u u' : Token} (hu : t.Twin v u u') : Echoes t v (docstringOf u) (docstringOf u') := by
  by_cases hne : u = t
  · subst hne
    refine .inr ⟨rfl,?_⟩
    have hvalue := hu.value
    rw [if_pos rfl] at hvalue
    simp only [docstringOf,hu.kind,hu.start,hu.stop,hvalue]
  · refine .inl ?_
    rw [hu.eq_of_ne hne]
    rfl

/-- In front of the string nothing has been noted of it, and the string that comes next is read. -/
theorem docstringLoop_follows (ht : Respoken t v) (fuel : Nat) (s s' : State) (hs : Beside t v s s')
    (hunread : t ∈ s.rest → s.rest.head? ≠ some t → Note.docstring (some t) ∉ s.notes) :
    Follows t v (Echoes t v) (repeating docstringStep fuel ()) (repeating docstringStep fuel ()) s s' := by
  induction fuel generalizing s s' with
  | zero => exact fun _ _ hrun => by cases hrun
  | succ fuel ih =>
    intro a s₁ hrun
    obtain ⟨x,s₂,hstep,hrun⟩ := bind_eq_ok hrun
    rw [docstringStep_run] at hstep
    have hstep' := docstringStep_run s'
    have hrest := hs.rest
    cases hr : s.rest with
    | nil =>
      rw [hr] at hstep
      cases hstep
    | cons u us =>
      rw [hr] at hstep hrest hunread
      obtain ⟨u',us',hu,hus,hr'⟩ := List.forall₂_cons_left_iff.mp hrest
      rw [hr'] at hstep'
      simp only [hu.isFiller_eq,hu.kind] at hstep'
      have hnext := (hs.advance hr hr').2
      have hbehind (hne : u ≠ t) (hmem : t ∈ us) : Note.docstring (some t) ∉ s.notes :=
        hunread (List.mem_cons_of_mem u hmem) (by simpa using hne)
      dsimp only at hstep
      split at hstep
      · rename_i hfiller
        have hne : u ≠ t := by
          rintro rfl
          simp [isFiller,ht.kind] at hfiller
        cases hus with
        | nil => cases hstep
        | cons hw hws =>
          cases hstep
          rw [if_pos hfiller] at hstep'
          rw [repeating,bind_of_ok _ hstep']
          refine ih _ _ ?_ (fun hmem hhead => ?_) a s₁ hrun
          · exact { hnext with }
          · simpa using ⟨fun e => hhead (by rw [e]; rfl),hbehind hne hmem⟩
      · rename_i hfiller
        rw [if_neg hfiller] at hstep'
        split at hstep
        · rename_i hk
          cases hstep
          cases hrun
          rw [if_pos hk] at hstep'
          refine .inl ⟨docstringOf u',_,bind_of_ok _ hstep',⟨hnext,fun hmem => hbehind (fun hne => ?_) hmem⟩,
            docstringOf_echoes hu⟩
          have honce := hs.once
          rw [hr,List.pairwise_cons] at honce
          exact absurd rfl (honce.1 t hmem hne)
        · rename_i hk
          cases hstep
          cases hrun
          rw [if_neg hk] at hstep'
          refine .inl ⟨none,s',bind_of_ok _ hstep',⟨hs,fun hmem => ?_⟩,.inl rfl⟩
          rw [hr] at hmem
          refine hunread hmem fun e => ?_
          cases e
          exact hk ht.kind

theorem docstringStep_spoils : Spoils t (docstringStep ()) := by
  intro s a s₁ hs hrun
  rw [docstringStep_run] at hrun
  cases hr : s.rest with
  | nil =>
    rw [hr] at hrun
    cases hrun
  | cons u us =>
    rw [hr] at hrun
    have hnext := hs.advance hr
    dsimp only at hrun
    split at hrun
    · cases us with
      | nil => cases hrun
      | cons w ws =>
        cases hrun
        refine ⟨hnext.taken,?_⟩
        simpa using ⟨fun e => hnext.taken (by rw [e]; exact List.mem_cons_self),hs.unread⟩
    · split at hrun <;> cases hrun
      · exact hnext
      · exact hs

theorem docstring_parallel (ht : Respoken t v) : Parallel t v (Echoes t v) docstring docstring := by
  have hhead {s : State} (hs : t ∈ s.rest → s.rest.head? ≠ some t → Note.docstring (some t) ∉ s.notes) :
      t ∈ s.rest → s.rest.head? ≠ some t → Note.docstring (some t) ∉ .docstring s.rest.head? :: s.notes := by
    intro hmem hne
    simpa using ⟨fun e => hne e.symm,hs hmem hne⟩
  constructor
  · intro s s' hs a s₁ hrun
    have h := docstringLoop_follows ht (s.rest.length + 1) { s with notes := .docstring s.rest.head? :: s.notes }
      { s' with notes := .docstring s'.rest.head? :: s'.notes } { hs with } (hhead fun hmem _ => hs.unread hmem)
      a s₁ hrun
    rw [hs.rest.length_eq] at h
    exact h
  · intro s a s₁ hs hrun
    have hloop : Spoils t (loop docstringStep ()) :=
      Ensures.loop (I := fun _ => Spoiled t) (fun _ => docstringStep_spoils.imp (fun _ h => h) fun x _ h => by
        cases x <;> exact h) ()
    refine hloop { s with notes := .docstring s.rest.head? :: s.notes } a s₁ ⟨hs.taken,?_⟩ hrun
    simpa using ⟨fun e => hs.taken (List.mem_of_head? e.symm),hs.unread⟩

end Outline

end DocLint
