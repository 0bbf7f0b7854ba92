import DocLint.Proofs.Outline.Steps
import DocLint.Proofs.Outline.Turns

/-!
Places from which the same definitions are read. What stands between them is passed over, and a definition
takes the decorators that wait there.
-/

set_option autoImplicit false

namespace DocLint.Outline

variable {α β : Type} {n t : Token} {a ts us : List Token} {fresh : Bool} {ds : List Decorator}
  {p q u : Spot} {region : Region} {exporting : Bool}

/-! ### Decorators that wait -/

/-- Properties of a state that do not depend on the place in the text. -/
def Steady (P : State → Prop) : Prop :=
  ∀ s rest line fresh notes, P s → P { s with rest, line, fresh, notes }

namespace Steady

variable {P : State → Prop}

theorem pending (ds : List Decorator) : Steady fun s => s.pending = ds := fun _ _ _ _ _ h => h

theorem note (h : Steady P) (e : Note) : Ensures P (note e) fun _ => P :=
  Ensures.modify fun s hs => h s s.rest s.line s.fresh (e :: s.notes) hs

theorem line : Ensures P line fun _ => P :=
  Ensures.get_bind fun _ hx => Ensures.pure fun _ hs => hs ▸ hx

theorem current? : Ensures P current? fun _ => P :=
  Ensures.get_bind fun _ hx => Ensures.pure fun _ hs => hs ▸ hx

theorem current : Ensures P current fun _ => P := by
  refine Ensures.bind current? fun t => ?_
  cases t with
  | none => exact Ensures.throw _
  | some t => exact Ensures.pure fun _ hs => hs

theorem move (h : Steady P) : Ensures P move fun _ => P := by
  intro s t s' hs hr
  obtain ⟨x,s₁,hx,hr⟩ := bind_eq_ok hr
  cases hx
  cases hrest : s.rest with
  | nil => simp [hrest] at hr; cases hr
  | cons t ts =>
    simp only [hrest] at hr
    cases hr
    exact h s _ _ _ s.notes hs

theorem consume (h : Steady P) (kind : TokenKind) : Ensures P (consume kind) fun _ => P := by
  refine Ensures.bind h.move fun t => ?_
  split
  · exact Ensures.throw _
  · exact Ensures.pure fun _ hs => hs

theorem loop {step : α → Reader (α ⊕ β)} (h : ∀ a, Ensures P (step a) fun _ => P) (a : α) :
    Ensures P (loop step a) fun _ => P := by
  refine Ensures.loop (I := fun _ => P) (fun a => (h a).imp (fun _ hs => hs) fun v s hs => ?_) a
  cases v with
  | inl a' => exact hs
  | inr b => exact hs

theorem leapfrog (h : Steady P) (kind : TokenKind) (value : Option Text) :
    Ensures P (leapfrog kind value) fun _ => P := by
  refine loop (fun _ => Ensures.bind current? fun t => ?_) ()
  cases t with
  | none => exact Ensures.pure fun _ hs => hs
  | some t => exact Ensures.bind h.move fun _ => Ensures.pure fun _ hs => hs

theorem fillers (h : Steady P) {e : Token → Note} (b : β) :
    Ensures P (do
      let _ ← Outline.move
      Outline.note (e (← Outline.current))
      return b) fun _ => P :=
  Ensures.bind h.move fun _ => Ensures.bind current fun _ => Ensures.bind (h.note _) fun _ =>
    Ensures.pure fun _ hs => hs

theorem skipComment (h : Steady P) : Ensures P skipComment fun _ => P := by
  refine loop (fun _ => Ensures.bind current fun t => ?_) ()
  split
  · exact h.fillers _
  · exact Ensures.pure fun _ hs => hs

theorem docstring (h : Steady P) : Ensures P docstring fun _ => P := by
  refine Ensures.bind current? fun _ => Ensures.bind (h.note _) fun _ => loop (fun _ => ?_) ()
  refine Ensures.bind current fun t => ?_
  split
  · exact h.fillers _
  · split
    · exact Ensures.bind h.move fun _ => Ensures.pure fun _ hs => hs
    · exact Ensures.pure fun _ hs => hs

theorem headerEnd (h : Steady P) : Ensures P headerEnd fun _ => P := by
  have hcolon : Ensures P (do
      if (← Outline.current).is .op ":" then Outline.consume .op
      else Outline.leapfrog .op (some ":")) fun _ => P := by
    refine Ensures.bind current fun t => ?_
    split
    · exact h.consume .op
    · exact h.leapfrog .op _
  refine Ensures.bind current fun t => ?_
  split
  · refine Ensures.bind (loop (fun _ => Ensures.bind current fun t => ?_) _) fun _ => hcolon
    split
    · exact Ensures.pure fun _ hs => hs
    · exact Ensures.bind h.move fun _ => Ensures.pure fun _ hs => hs
  · exact hcolon

end Steady

theorem takePending_ensures (ds : List Decorator) :
    Ensures (fun s => s.pending = ds) takePending fun found _ => found = ds := by
  refine Ensures.get_bind fun x hx => ?_
  refine Ensures.bind (Q := fun _ _ => True) Ensures.any fun _ => ?_
  exact Ensures.bind (Q := fun _ _ => True) Ensures.any fun _ => Ensures.pure fun _ _ => hx

theorem Ensures.const {C : Prop} (r : Reader α) : Ensures (fun _ => C) r fun _ _ => C :=
  fun _ _ _ h _ => h

theorem definitionWith_pending (nested : Region → Reader (List Definition)) (kind : DefinitionKind)
    (ds : List Decorator) :
    Ensures (fun s => s.pending = ds) (definitionWith nested kind) fun d _ => d.decorators = ds := by
  have hp := Steady.pending ds
  have hdone (d : Definition) (name : Text) : Ensures (fun _ => d.decorators = ds) (do
      let result ← pure d
      note (.definitionDone kind name (← current?))
      return result) fun d _ => d.decorators = ds :=
    Ensures.bind (Ensures.pure (Q := fun d _ => d.decorators = ds) fun _ hd => hd) fun _ =>
      Ensures.bind (Ensures.const _) fun _ => Ensures.bind (Ensures.const _) fun _ =>
        Ensures.pure fun _ hd => hd
  refine Ensures.bind Steady.line fun start => Ensures.bind (hp.consume .name) fun _ => ?_
  refine Ensures.bind Steady.current fun name => Ensures.bind (hp.note _) fun _ => ?_
  refine Ensures.bind hp.move fun _ => Ensures.bind hp.headerEnd fun _ => ?_
  refine Ensures.bind Steady.current fun first => ?_
  dsimp only
  split
  · refine Ensures.bind hp.skipComment fun _ => Ensures.bind (hp.leapfrog .indent none) fun _ => ?_
    refine Ensures.bind Steady.current fun _ => ?_
    split
    · exact Ensures.throw_bind
    · refine Ensures.bind hp.docstring fun _ => Ensures.bind (takePending_ensures ds) fun found => ?_
      refine Ensures.bind (Ensures.const _) fun _ => Ensures.bind (Ensures.const _) fun _ => ?_
      refine Ensures.bind (Ensures.const _) fun _ => Ensures.bind (Ensures.const _) fun _ => ?_
      exact (hdone _ name.value).imp (fun _ h => h) fun _ _ h => h
  · refine Ensures.bind hp.docstring fun _ => Ensures.bind (takePending_ensures ds) fun found => ?_
    refine Ensures.bind (Ensures.const _) fun _ => Ensures.bind (Ensures.const _) fun _ => ?_
    exact (hdone _ name.value).imp (fun _ h => h) fun _ _ h => h

/-! ### Reading from another place -/

def Leads [Resources] (region : Region) (exporting : Bool) (p q : Spot) : Prop :=
  Resumes (definitions region exporting) p (definitions region exporting) q

namespace Leads

theorem refl [Resources] : Leads region exporting p p := Resumes.refl

theorem trans [Resources] (h : Leads region exporting p q) (h' : Leads region exporting q u) :
    Leads region exporting p u :=
  Resumes.trans h h'

theorem exists_at {s : State} (hs : s.spot = .before (t :: us) fresh ds) :
    ∃ ts n, At ts n s ∧ ts[n]? = some t := by
  obtain ⟨hrest,hline,hfresh,-⟩ := Spot.mk.inj hs
  cases fresh with
  | true => exact ⟨t :: us,0,⟨Nat.zero_le _,hrest,hline,hfresh⟩,rfl⟩
  | false =>
    -- Behind a token in the middle of a line no statement may open.
    refine ⟨⟨.op, [], ⟨0, 0⟩, ⟨0, 0⟩, []⟩ :: t :: us,1,⟨by simp,hrest,hline,?_⟩,rfl⟩
    exact hfresh

theorem of_at [Resources] (h : ∀ s : State, s.spot = .before (t :: us) fresh ds → ∃ s', s'.spot = q ∧
      definitionsAt definitions region exporting fresh t s = definitions region exporting s') :
    Leads region exporting (.before (t :: us) fresh ds) q := by
  intro s hs
  obtain ⟨ts,n,hat,ht⟩ := exists_at hs
  obtain rfl : s.fresh = fresh := (Spot.mk.inj hs).2.2.1
  rw [definitions_at hat ht]
  exact h _ hs

theorem of_runs [Resources] {r : Reader α} {v : α} (hr : Runs r (.before (t :: us) fresh ds) v q)
    (hstep : ∀ next, definitionsAt next region exporting fresh t = r >>= fun _ => next region exporting) :
    Leads region exporting (.before (t :: us) fresh ds) q := by
  refine of_at fun s hs => ?_
  obtain ⟨s',hs',heq⟩ := hr.step (β := List Definition) hs
  exact ⟨s',hs',by rw [hstep,heq]⟩

theorem of_stays [Resources] {r : Reader Unit} (hr : Stays n us ds r (t :: a) (fun _ b => b <:+ a) fresh)
    (hstep : ∀ next, definitionsAt next region exporting fresh t = r >>= fun _ => next region exporting)
    (h : ∀ b, b <:+ a → Leads region exporting (.before (b ++ n :: us) false ds) q) :
    Leads region exporting (.before (t :: a ++ n :: us) fresh ds) q := by
  refine of_at fun s hs => ?_
  obtain ⟨_,b,s₁,h₁,e₁,-,hb⟩ := hr s hs
  obtain ⟨s₂,e₂,h₂⟩ := h b hb s₁ e₁
  exact ⟨s₂,e₂,by rw [hstep,bind_of_ok _ h₁,h₂]⟩

theorem pass [Resources] (hus : us ≠ []) (he : (exporting && t.value == exportName) = false)
    (hd : (t.is .op "@" && fresh) = false)
    (hw : ¬ (t.value = "def".toList ∨ t.value = "class".toList)) (hf : t.value ≠ "from".toList)
    (hk : t.kind ≠ .indent ∧ t.kind ≠ .dedent) :
    Leads region exporting (.before (t :: us) fresh ds) (.before us (freshAfter fresh t) ds) := by
  refine of_runs (r := move) (Runs.move hus) fun next => ?_
  simp only [definitionsAt,he,hd,hw,hk.1,hk.2,hf,Bool.false_eq_true,if_false]

theorem lineEnd [Resources] (ht : isFiller t = true) (hw : isWellSpelled t = true) (hus : us ≠ []) :
    Leads region exporting (.before (t :: us) fresh ds) (.before us (freshAfter fresh t) ds) := by
  have hk : t.kind ≠ .name ∧ t.kind ≠ .op ∧ t.kind ≠ .indent ∧ t.kind ≠ .dedent := by
    unfold isFiller at ht
    cases hk : t.kind <;> simp_all
  have hs := Yields.Silent.of_kind hw hk.1
  refine pass hus ?_ ?_ hs.notDefinition hs.notImport hk.2.2
  · rw [hs.notExport,Bool.and_false]
  · rw [is_op_of_kind_ne hk.2.1,Bool.false_and]

theorem blanks [Resources] (bs : List Blank) (hus : us ≠ []) :
    Leads region exporting (.before (bs.map (·.token) ++ us) true ds) (.before us true ds) := by
  induction bs with
  | nil => exact refl
  | cons b bs ih =>
    refine trans (lineEnd (isFiller_of_blank b.isBlank) b.spelled (by simp [hus])) ?_
    rw [freshAfter_blank b.isBlank]
    exact ih

end Leads

/-- Tokens of a line, of which those that guide the reader are followed by a closing parenthesis. -/
structure Parenthesised (a : List Token) : Prop where
  code : ∀ x ∈ a, isCode x = true
  plain : ∀ x ∈ a, (x.is .name "def" || x.is .name "class") = false
  closed : ∀ x b, x :: b <:+ a → x.kind = .name ∨ x.value = "(".toList →
    ∃ pre c post, b = pre ++ c :: post ∧ c.is .op ")" = true

namespace Parenthesised

theorem suffix {b : List Token} (ha : Parenthesised a) (hb : b <:+ a) : Parenthesised b where
  code := fun x hx => ha.code x (hb.subset hx)
  plain := fun x hx => ha.plain x (hb.subset hx)
  closed := fun x c hc => ha.closed x c (hc.trans hb)

theorem wellSpelled {x : Token} (ha : Parenthesised a) (hx : x ∈ a) : isWellSpelled x = true := by
  have h := ha.code x hx
  simp only [isCode,Bool.and_eq_true] at h
  exact h.2

theorem closes (ha : Parenthesised a) : closesBrackets a := by
  intro x b hb hx
  obtain ⟨pre,c,post,rfl,hc⟩ := ha.closed x b hb (.inr hx)
  exact ⟨pre,c,post,rfl,kind_of_is hc,by rw [value_of_is hc]; decide⟩

/-- What is read from the middle of such a line does not depend on it. -/
theorem leads [Resources] (ha : Parenthesised a) (hn : n.kind = .newline) (hw : isWellSpelled n = true) (hus : us ≠ []) :
    Leads region exporting (.before (a ++ n :: us) false ds) (.before us true ds) := by
  induction hl : a.length using Nat.strongRecOn generalizing a with
  | ind k ih =>
    cases a with
    | nil =>
      have hf : freshAfter false n = true := by simp [freshAfter,hn,TokenKind.endsStatement]
      rw [← hf]
      exact Leads.lineEnd (by simp [isFiller,hn]) hw hus
    | cons x a =>
      have hx : x ∈ x :: a := List.mem_cons_self
      have hrest (b : List Token) (hb : b <:+ a) :
          Leads region exporting (.before (b ++ n :: us) false ds) (.before us true ds) := by
        refine ih b.length ?_ (ha.suffix (hb.trans (List.suffix_cons x a))) rfl
        have := hb.length_le
        simp only [List.length_cons] at hl
        omega
      have hinner := inner_of_isInLine (isInLine_of_isCode (ha.code x hx))
      have hkind : x.kind ≠ .indent ∧ x.kind ≠ .dedent := by
        constructor <;> intro hk <;> simp [hk,TokenKind.isInner] at hinner
      have hdef : ¬ (x.value = "def".toList ∨ x.value = "class".toList) := by
        have hp := ha.plain x hx
        simp only [Token.is,Bool.or_eq_false_iff,Bool.and_eq_false_iff,beq_eq_false_iff_ne] at hp
        rintro (h | h)
        · have hname := name_of_word (ha.wellSpelled hx) h (by decide)
          exact hp.1.elim (absurd hname) (absurd h)
        · have hname := name_of_word (ha.wellSpelled hx) h (by decide)
          exact hp.2.elim (absurd hname) (absurd h)
      have htail := ha.suffix (List.suffix_cons x a)
      by_cases he : (exporting && x.value == exportName) = true
      · have hv : x.value = exportName := beq_iff_eq.mp ((Bool.and_eq_true _ _).mp he).2
        have hk := name_of_word (ha.wellSpelled hx) hv (by decide)
        obtain ⟨pre,c,post,rfl,hc⟩ := ha.closed x a (List.suffix_refl _) (.inl hk)
        refine Leads.of_stays (r := exportStatement) ?_ (fun next => ?_) hrest
        · exact exportStatement_stays_closed (by simp [Token.is,hv,hk]) (by simp [hn]) hc htail.code
        · simp only [definitionsAt,he,if_true]
      · by_cases hf : x.value = "from".toList
        · have hk := name_of_word (ha.wellSpelled hx) hf (by decide)
          obtain ⟨pre,c,post,rfl,hc⟩ := ha.closed x a (List.suffix_refl _) (.inl hk)
          refine Leads.of_stays (r := fromImport) ?_ (fun next => ?_) hrest
          · refine fromImport_stays ?_ hn hw (by simp) htail.closes fun y hy =>
              isInLine_of_isCode (htail.code y hy)
            simp only [Token.is,hf,hk,beq_self_eq_true,Bool.and_self]
          · rw [definitionsAt,if_neg he,Bool.and_false,if_neg (by simp),if_neg hdef,if_neg hkind.1,
              if_neg hkind.2,if_pos hf]
        · refine Leads.trans (Leads.pass (by simp) (Bool.eq_false_iff.mpr he) (Bool.and_false _) hdef hf
            hkind) ?_
          rw [freshAfter_code hinner]
          exact hrest a (List.suffix_refl a)

end Parenthesised

end DocLint.Outline
