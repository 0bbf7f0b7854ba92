import DocLint.Proofs.Outline.Pieces

/-!
Words inside a line. The reader of definitions looks at a few words wherever they stand, also in the
middle of a header; what it then reads ends before the line does.
-/

set_option autoImplicit false

namespace DocLint.Outline

variable {α β : Type} {n t : Token} {a us : List Token} {ds : List Decorator}

/-- Whether a token may stand in a line, be it code or a comment. -/
def isInLine (t : Token) : Bool := t.kind.isInner && isWellSpelled t

theorem inner_of_isInLine (h : isInLine t = true) : t.kind.isInner = true := by
  simp only [isInLine,Bool.and_eq_true] at h
  exact h.1

theorem isInLine_of_isCode (h : isCode t = true) : isInLine t = true := by
  simp only [isCode,isInLine,Bool.and_eq_true] at h ⊢
  exact ⟨h.1.1,h.2⟩

theorem name_of_word {w : Text} (h : isWellSpelled t = true) (ht : t.value = w)
    (hw : w ∈ guideWords) : t.kind = .name := by
  subst ht
  simp only [isWellSpelled,Bool.and_eq_true,Bool.or_eq_true,Bool.not_eq_true',beq_iff_eq] at h
  simpa [hw] using h.1

theorem op_of_mark {w : Text} (h : isWellSpelled t = true) (ht : t.value = w)
    (hw : w ∈ guideMarks) (hn : w ≠ []) : t.kind = .op := by
  subst ht
  simp only [isWellSpelled,Bool.and_eq_true,Bool.or_eq_true,Bool.not_eq_true',beq_iff_eq] at h
  simpa [hw,hn] using h.2

theorem freshAfter_name {fresh : Bool} (h : t.kind = .name) : freshAfter fresh t = false := by
  simp [freshAfter,h,TokenKind.endsStatement,TokenKind.isLogicallyBlank]

/-- Among the tokens `a` of a line, a reader takes some from the front and never gets to `n`, with
which the text goes on. The result and the tokens that are left of `a` are as `Q` says. -/
def Stays (n : Token) (us : List Token) (ds : List Decorator) (r : Reader α) (a : List Token)
    (Q : α → List Token → Prop) (fresh : Bool := false) : Prop :=
  ∀ s : State, s.spot = .before (a ++ n :: us) fresh ds → ∃ v b s',
    r s = .ok v s' ∧ s'.spot = .before (b ++ n :: us) false ds ∧ b <:+ a ∧ Q v b

namespace Stays

variable {Q : α → List Token → Prop} {P : β → List Token → Prop} {r : Reader α} {fresh : Bool}

theorem mono {Q' : α → List Token → Prop} (h : Stays n us ds r a Q fresh)
    (hQ : ∀ v b, b <:+ a → Q v b → Q' v b) : Stays n us ds r a Q' fresh := by
  intro s hs
  obtain ⟨v,b,s',hr,hs',hb,h⟩ := h s hs
  exact ⟨v,b,s',hr,hs',hb,hQ v b hb h⟩

theorem of_runs {v : α} {b : List Token} (hb : b <:+ a) (hQ : Q v b)
    (h : Runs r (.before (a ++ n :: us) fresh ds) v (.before (b ++ n :: us) false ds)) :
    Stays n us ds r a Q fresh := by
  intro s hs
  obtain ⟨s',hr,hs'⟩ := h s hs
  exact ⟨v,b,s',hr,hs',hb,hQ⟩

theorem bind {f : α → Reader β} (hr : Stays n us ds r a Q fresh)
    (hf : ∀ v b, b <:+ a → Q v b → Stays n us ds (f v) b P) : Stays n us ds (r >>= f) a P fresh := by
  intro s hs
  obtain ⟨v,b,s₁,h₁,e₁,hb,hQ⟩ := hr s hs
  obtain ⟨w,c,s₂,h₂,e₂,hc,hP⟩ := hf v b hb hQ s₁ e₁
  refine ⟨w,c,s₂,?_,e₂,hc.trans hb,hP⟩
  change EStateM.bind r f s = _
  simp only [EStateM.bind,h₁]
  exact h₂

theorem runs_bind {f : α → Reader β} {v : α} {b : List Token} {fresh' : Bool}
    (hr : Runs r (.before (a ++ n :: us) fresh ds) v (.before (b ++ n :: us) fresh' ds)) (hb : b <:+ a)
    (hf : Stays n us ds (f v) b P fresh') : Stays n us ds (r >>= f) a P fresh := by
  intro s hs
  obtain ⟨s₁,e₁,h₁⟩ := hr.step hs
  obtain ⟨w,c,s₂,h₂,e₂,hc,hP⟩ := hf s₁ e₁
  exact ⟨w,c,s₂,(h₁ f).trans h₂,e₂,hc.trans hb,hP⟩

theorem pure {v : α} (hQ : Q v a) : Stays n us ds (pure v) a Q :=
  of_runs (List.suffix_refl a) hQ Runs.pure

/-- What is read off the state may depend on the parts that are left out of account. -/
theorem get_bind {f : State → Reader β}
    (hf : ∀ s : State, s.rest = a ++ n :: us → Stays n us ds (f s) a P) :
    Stays n us ds (get >>= f) a P := fun s hs => hf s (Spot.mk.inj hs).1 s hs

theorem modify_bind {g : State → State} {f : Unit → Reader β} (hg : ∀ s, (g s).spot = s.spot)
    (hf : Stays n us ds (f ()) a P fresh) : Stays n us ds (modify g >>= f) a P fresh :=
  runs_bind (Runs.modify fun s hs => (hg s).trans hs) (List.suffix_refl a) hf

theorem modify {g : State → State} {Q : Unit → List Token → Prop} (hg : ∀ s, (g s).spot = s.spot)
    (hQ : Q () a) : Stays n us ds (modify g) a Q :=
  of_runs (List.suffix_refl a) hQ (Runs.modify fun s hs => (hg s).trans hs)

theorem note_bind {m : Note} {f : Unit → Reader β} (hf : Stays n us ds (f ()) a P fresh) :
    Stays n us ds (note m >>= f) a P fresh := modify_bind (fun _ => rfl) hf

theorem current_bind {f : Token → Reader β} (hn : a = [] → Stays n us ds (f n) [] P)
    (hc : ∀ x b, a = x :: b → Stays n us ds (f x) (x :: b) P) :
    Stays n us ds (current >>= f) a P := by
  cases a with
  | nil => exact runs_bind (b := []) Runs.current (List.suffix_refl []) (hn rfl)
  | cons x a => exact runs_bind (b := x :: a) Runs.current (List.suffix_refl _) (hc x a rfl)

theorem current?_bind {f : Option Token → Reader β} (hn : a = [] → Stays n us ds (f (some n)) [] P)
    (hc : ∀ x b, a = x :: b → Stays n us ds (f (some x)) (x :: b) P) :
    Stays n us ds (current? >>= f) a P := by
  cases a with
  | nil => exact runs_bind Runs.current? (List.suffix_refl []) (hn rfl)
  | cons x a => exact runs_bind Runs.current? (List.suffix_refl _) (hc x a rfl)

theorem any_current_bind {f : Token → Reader β} (hf : ∀ x, Stays n us ds (f x) a P) :
    Stays n us ds (current >>= f) a P :=
  current_bind (fun h => h ▸ hf n) fun x _ h => h ▸ hf x

theorem head_bind {x : Token} {f : Token → Reader β} (hf : Stays n us ds (f x) (x :: a) P fresh) :
    Stays n us ds (current >>= f) (x :: a) P fresh :=
  runs_bind (b := x :: a) Runs.current (List.suffix_refl _) hf

theorem open_move_bind {x : Token} {f : Token → Reader β} (hx : freshAfter fresh x = false)
    (hf : Stays n us ds (f x) a P) : Stays n us ds (move >>= f) (x :: a) P fresh := by
  have h : Runs move (.before (x :: (a ++ n :: us)) fresh ds) x
      (.before (a ++ n :: us) (freshAfter fresh x) ds) := Runs.move (by simp)
  exact runs_bind (hx ▸ h) (List.suffix_cons x a) hf

theorem open_consume_bind {x : Token} {k : TokenKind} {f : Unit → Reader β} (hk : x.kind = k)
    (hx : freshAfter fresh x = false) (hf : Stays n us ds (f ()) a P) :
    Stays n us ds (consume k >>= f) (x :: a) P fresh := by
  have h : Runs (consume k) (.before (x :: (a ++ n :: us)) fresh ds) ()
      (.before (a ++ n :: us) (freshAfter fresh x) ds) := Runs.consume hk (by simp)
  exact runs_bind (hx ▸ h) (List.suffix_cons x a) hf

theorem move_bind {x : Token} {f : Token → Reader β} (hx : x.kind.isInner = true)
    (hf : Stays n us ds (f x) a P) : Stays n us ds (move >>= f) (x :: a) P :=
  open_move_bind (freshAfter_code hx) hf

theorem consume_bind {x : Token} {k : TokenKind} {f : Unit → Reader β} (hk : x.kind = k)
    (hx : x.kind.isInner = true) (hf : Stays n us ds (f ()) a P) :
    Stays n us ds (consume k >>= f) (x :: a) P := open_consume_bind hk (freshAfter_code hx) hf

theorem consume {x : Token} {k : TokenKind} {Q : Unit → List Token → Prop} (hk : x.kind = k)
    (hx : x.kind.isInner = true) (hQ : Q () a) : Stays n us ds (consume k) (x :: a) Q := by
  have h : Runs (Outline.consume k) (.before (x :: (a ++ n :: us)) false ds) ()
      (.before (a ++ n :: us) (freshAfter false x) ds) := Runs.consume hk (by simp)
  rw [freshAfter_code hx] at h
  exact of_runs (List.suffix_cons x a) hQ h

/-- A token that is taken on a condition, which the end of the line does not meet. -/
theorem consume_if {k : TokenKind} {c : Token → Prop} [DecidablePred c] (hn : ¬ c n)
    (ha : ∀ x ∈ a, x.kind.isInner = true) (hk : ∀ x ∈ a, c x → x.kind = k) :
    Stays n us ds (current >>= fun x => if c x then Outline.consume k else Pure.pure ()) a
      fun _ _ => True := by
  refine current_bind ?_ ?_
  · rintro rfl
    simp only [hn,if_false]
    exact pure trivial
  · rintro x b rfl
    by_cases h : c x
    · simp only [h,if_true]
      exact consume (hk x (by simp) h) (ha x (by simp)) trivial
    · simp only [h,if_false]
      exact pure trivial

/-- A loop stays in the line if each step does that starts there and goes on only after it took a
token. -/
theorem loop {step : α → Reader (α ⊕ β)} {c : α} (h : ∀ c b, b <:+ a → Stays n us ds (step c) b
      fun v b' => v.elim (fun _ => b'.length < b.length) (P · b')) :
    Stays n us ds (loop step c) a P := by
  suffices hk : ∀ k c b, b <:+ a → b.length < k → Stays n us ds (repeating step k c) b P from
    get_bind fun s hs => hk _ _ _ (List.suffix_refl a) (by rw [hs,List.length_append]; omega)
  intro k
  induction k with
  | zero => intro c b hb hlt; omega
  | succ k ih =>
    intro c b hb hlt
    refine bind (h c b hb) fun v b' hb' hv => ?_
    cases v with
    | inl c' => exact ih c' b' (hb'.trans hb) (by simp only [Sum.elim_inl] at hv; omega)
    | inr w => exact pure hv

/-- A reader that stays before some token of a line stays in the line. -/
theorem widen {c : Token} {d : List Token} {Q' : α → List Token → Prop}
    (h : Stays c (d ++ n :: us) ds r a Q fresh) (hQ : ∀ v b, Q v b → Q' v (b ++ c :: d)) :
    Stays n us ds r (a ++ c :: d) Q' fresh := by
  intro s hs
  obtain ⟨v,b,s',hr,hs',⟨e,rfl⟩,hb⟩ := h s (by simpa using hs)
  exact ⟨v,b ++ c :: d,s',hr,by simpa using hs',⟨e,by simp⟩,hQ v b hb⟩

end Stays

/-! ### Imports -/

theorem importedAlias_stays (hn : n.kind ≠ .name) (ha : ∀ x ∈ a, isInLine x = true) :
    Stays n us ds importedAlias a fun _ _ => True := by
  have hi : ∀ x ∈ a, x.kind.isInner = true := fun x hx => inner_of_isInLine (ha x hx)
  have hnot : n.is .name "as" = false := by simp [Token.is,hn]
  refine Stays.current_bind ?_ ?_
  · rintro rfl
    simp only [hnot,Bool.false_eq_true,if_false]
    exact Stays.pure trivial
  · rintro x b rfl
    by_cases h : x.is .name "as" = true
    · simp only [h,if_true]
      exact Stays.consume_bind (kind_of_is h) (hi x (by simp))
        (Stays.consume_if hn (fun y hy => hi y (by simp [hy])) fun _ _ hy => hy)
    · simp only [h,Bool.false_eq_true,if_false]
      exact Stays.pure trivial

theorem importedComma_stays (hn : n.value ≠ ",".toList) (ha : ∀ x ∈ a, isInLine x = true) :
    Stays n us ds importedComma a fun _ _ => True := by
  refine Stays.consume_if hn (fun x hx => inner_of_isInLine (ha x hx)) fun x hx h => ?_
  have hs := ha x hx
  simp only [isInLine,Bool.and_eq_true] at hs
  exact op_of_mark hs.2 h (by decide) (by decide)

theorem addFeature_bind {name : Text} {f : Unit → Reader β} {P : β → List Token → Prop}
    (hf : Stays n us ds (f ()) a P) : Stays n us ds (addFeature name >>= f) a P := by
  refine Stays.bind (Q := fun _ b => b = a) (Stays.note_bind (Stays.modify (fun s => ?_) rfl)) ?_
  · split <;> rfl
  · rintro _ _ - rfl
    exact hf

theorem importedName_stays (isFeature : Bool) (ht : t.kind = .name) (hn : n.kind ≠ .name)
    (hc : n.value ≠ ",".toList) (ha : ∀ x ∈ a, isInLine x = true) :
    Stays n us ds (importedName isFeature t) (t :: a) fun _ b => b <:+ a := by
  have hrest : Stays n us ds (do
      consume .name
      note (.imported (← current))
      importedAlias
      importedComma
      note (.imported (← current))) (t :: a) fun _ b => b <:+ a := by
    refine Stays.consume_bind ht (by rw [ht]; rfl) (Stays.any_current_bind fun _ => ?_)
    refine Stays.note_bind (Stays.bind (importedAlias_stays hn ha) fun _ b hb _ => ?_)
    refine Stays.bind (importedComma_stays hc fun x hx => ha x (hb.subset hx)) fun _ c hcb _ => ?_
    exact Stays.any_current_bind fun _ => Stays.modify (fun _ => rfl) (hcb.trans hb)
  refine Stays.note_bind ?_
  split
  · exact addFeature_bind hrest
  · exact hrest

/-- The imported names end at an end of the line that is outside of brackets, or at an operator
inside of them. -/
theorem importedNamesLoop_stays (isFeature bracketed : Bool) (he : endsImport bracketed n = true)
    (hn : n.kind ≠ .name) (hc : n.value ≠ ",".toList) (ha : ∀ x ∈ a, isInLine x = true) :
    Stays n us ds (loop (importedNamesStep isFeature bracketed) ()) a fun _ _ => True := by
  refine Stays.loop fun _ b hb => Stays.current_bind ?_ ?_
  · rintro rfl
    simp only [he,if_true]
    exact Stays.pure trivial
  · rintro x c rfl
    have hcs : ∀ y ∈ c, isInLine y = true := fun y hy => ha y (hb.subset (by simp [hy]))
    split
    · exact Stays.pure trivial
    · split
      · rename_i hk
        refine Stays.bind (importedName_stays isFeature hk hn hc hcs) fun _ d _ hd => ?_
        exact Stays.pure (Nat.lt_succ_of_le hd.length_le)
      · exact Stays.move_bind (inner_of_isInLine (ha x (hb.subset (by simp))))
          (Stays.pure (Nat.lt_succ_self _))

def closesBrackets (a : List Token) : Prop :=
  ∀ x b, x :: b <:+ a → x.value = "(".toList →
    ∃ pre c post, b = pre ++ c :: post ∧ c.kind = .op ∧ c.value ≠ ",".toList

theorem importedNames_stays (isFeature : Bool) (hn : n.kind = .newline) (hw : isWellSpelled n = true)
    (hclose : closesBrackets a) (ha : ∀ x ∈ a, isInLine x = true) :
    Stays n us ds (importedNames isFeature) a fun _ _ => True := by
  have hvalue {w : Text} (hmem : w ∈ guideMarks) (hne : w ≠ []) : n.value ≠ w := fun h => by
    simpa [hn] using op_of_mark hw h hmem hne
  have hplain {b : List Token} (hb : b <:+ a) : Stays n us ds
      (loop (importedNamesStep isFeature false) ()) b fun _ _ => True :=
    importedNamesLoop_stays isFeature false (by simp [endsImport,hn]) (by simp [hn])
      (hvalue (by decide) (by decide)) fun x hx => ha x (hb.subset hx)
  refine Stays.current_bind ?_ ?_
  · rintro rfl
    have hne := hvalue (w := "(".toList) (by decide) (by decide)
    simp only [beq_eq_false_iff_ne.mpr hne]
    exact hplain (List.suffix_refl [])
  · rintro x b rfl
    by_cases hx : x.value = "(".toList
    · obtain ⟨pre,c,post,rfl,hk,hcomma⟩ := hclose x b (List.suffix_refl _) hx
      have hin := ha x (by simp)
      have hw' := hin
      simp only [isInLine,Bool.and_eq_true] at hw'
      simp only [hx,beq_self_eq_true,if_true]
      refine Stays.consume_bind (op_of_mark hw'.2 hx (by decide) (by decide))
        (inner_of_isInLine hin) (Stays.widen (importedNamesLoop_stays isFeature true ?_ ?_ hcomma ?_)
          fun _ _ _ => trivial)
      · simp [endsImport,hk]
      · simp [hk]
      · exact fun y hy => ha y (by simp [hy])
    · simp only [beq_eq_false_iff_ne.mpr hx]
      exact hplain (List.suffix_refl _)

theorem importSource_stays {y : Token} {fresh : Bool} (ht : t.is .name "from" = true)
    (hn : n.kind = .newline) (hw : isWellSpelled n = true) (ha : ∀ x ∈ y :: a, isInLine x = true) :
    Stays n us ds importSource (t :: y :: a) (fun _ b => b <:+ a) fresh := by
  have hvalue : n.value ≠ "import".toList := fun h => by
    simpa [hn] using name_of_word hw h (by decide)
  have hloop (isFeature : Bool) : Stays n us ds (loop (importSourceStep isFeature) ()) a
      fun _ _ => True := by
    refine Stays.loop fun _ b hb => Stays.current?_bind ?_ ?_
    · rintro rfl
      simp only [hvalue,hn,if_false,reduceCtorEq,or_self]
      exact Stays.pure trivial
    · rintro x c rfl
      have hx := inner_of_isInLine (ha x (List.mem_cons_of_mem _ (hb.subset (by simp))))
      dsimp only
      split
      · exact Stays.move_bind hx (Stays.pure trivial)
      · split
        · exact Stays.move_bind hx (Stays.pure (Nat.lt_succ_self _))
        · exact Stays.pure trivial
  refine Stays.head_bind ?_
  simp only [value_of_is ht,ne_eq,not_true_eq_false,if_false]
  refine Stays.open_move_bind (freshAfter_name (kind_of_is ht)) (Stays.any_current_bind fun z => ?_)
  refine Stays.move_bind (inner_of_isInLine (ha y (by simp))) ?_
  exact (hloop _).mono fun _ _ hb _ => hb

theorem fromImport_stays {fresh : Bool} (ht : t.is .name "from" = true) (hn : n.kind = .newline)
    (hw : isWellSpelled n = true) (hne : a ≠ []) (hclose : closesBrackets a)
    (ha : ∀ x ∈ a, isInLine x = true) :
    Stays n us ds fromImport (t :: a) (fun _ b => b <:+ a) fresh := by
  cases a with
  | nil => exact absurd rfl hne
  | cons y a =>
    refine Stays.note_bind (Stays.bind (importSource_stays ht hn hw ha) fun v b _ hb => ?_)
    have hb' : b <:+ y :: a := hb.trans (List.suffix_cons y a)
    have hcb : closesBrackets b := fun x c hc => hclose x c (hc.trans hb')
    exact (importedNames_stays v hn hw hcb fun x hx => ha x (hb'.subset hx)).mono
      fun _ _ hc _ => hc.trans hb'

/-! ### Exported names -/

theorem op_of_bracket (ht : isCode t = true)
    (h : openingBrackets.contains t.value = true ∨ closingBrackets.contains t.value = true) :
    t.kind = .op := by
  simp only [isCode,Bool.and_eq_true,Bool.not_eq_true',List.isEmpty_eq_false_iff] at ht
  refine op_of_mark ht.2 rfl ?_ ht.1.2
  simp only [guideMarks,List.mem_append,List.contains_iff_mem] at h ⊢
  exact .inl h

/-- The names end before an operator that is no comma, and if they are known then at a closing
bracket. -/
theorem exportContent_stays (surrounded : Bool) (hn : n.kind = .op) (hv : n.value ≠ ",".toList)
    (ha : ∀ x ∈ a, isCode x = true) :
    Stays n us ds (exportContent surrounded) a fun v b => v.isSome = true →
      surrounded = true ∧ ∃ x c, b ++ [n] = x :: c ∧ closingBrackets.contains x.value = true := by
  refine Stays.loop fun content b hsuf => Stays.current_bind ?_ ?_
  · rintro rfl
    split
    · rename_i h
      simp only [Bool.and_eq_true] at h
      exact Stays.pure fun _ => ⟨h.1,n,[],rfl,h.2⟩
    · simp only [hn,hv,if_false,reduceCtorEq,or_self]
      exact Stays.pure (by simp)
  · rintro x c rfl
    have hx := inner_of_isInLine (isInLine_of_isCode (ha x (hsuf.subset (by simp))))
    split
    · rename_i h
      simp only [Bool.and_eq_true] at h
      exact Stays.pure fun _ => ⟨h.1,x,c ++ [n],rfl,h.2⟩
    · split
      · rename_i h
        rcases h with h | h <;> simp [h,TokenKind.isInner] at hx
      · split
        · exact Stays.move_bind hx (Stays.pure (Nat.lt_succ_self _))
        · split
          · exact Stays.move_bind hx (Stays.pure (Nat.lt_succ_self _))
          · exact Stays.pure (by simp)

theorem exportsEnd_stays (hn : n.kind ≠ .comment) (ha : ∀ x ∈ a, x.kind.isInner = true) :
    Stays n us ds exportsEnd a fun _ _ => True := by
  refine Stays.loop fun _ b hsuf => Stays.current_bind ?_ ?_
  · rintro rfl
    split
    · exact Stays.pure trivial
    · exact Stays.modify_bind (fun _ => rfl) (Stays.pure trivial)
  · rintro x c rfl
    split
    · exact Stays.pure trivial
    · split
      · exact Stays.move_bind (ha x (hsuf.subset (by simp))) (Stays.pure (Nat.lt_succ_self _))
      · exact Stays.modify_bind (fun _ => rfl) (Stays.pure trivial)

theorem evaluateExports_bind [Resources] {content : Text} {f : Unit → Reader β} {P : β → List Token → Prop}
    (hf : Stays n us ds (f ()) a P) : Stays n us ds (evaluateExports content >>= f) a P :=
  Stays.modify_bind (fun s => by split <;> rfl) hf

/-- What is read behind the names stays in the line if they end at a closing bracket of it. -/
theorem exportedContent_of_content [Resources] {surrounded : Bool} (hn : n.kind ≠ .comment)
    (ha : ∀ x ∈ a, isCode x = true) (hcontent : Stays n us ds (exportContent surrounded) a fun v b =>
      v.isSome = true → surrounded = true ∧ ∃ x c, b = x :: c ∧ closingBrackets.contains x.value = true) :
    Stays n us ds (exportedContent surrounded) a fun _ _ => True := by
  refine Stays.bind hcontent fun v b hb hv => ?_
  cases v with
  | none => exact Stays.modify (fun _ => rfl) trivial
  | some content =>
    obtain ⟨rfl,x,c,rfl,hx⟩ := hv rfl
    have hcode := ha x (hb.subset (by simp))
    simp only [if_true,Bool.not_true,Bool.false_and,Bool.false_eq_true,if_false]
    refine Stays.consume_bind (op_of_bracket hcode (.inr hx))
      (inner_of_isInLine (isInLine_of_isCode hcode)) (evaluateExports_bind ?_)
    refine exportsEnd_stays hn fun y hy => ?_
    exact inner_of_isInLine (isInLine_of_isCode (ha y (hb.subset (by simp [hy]))))

theorem exportedContent_stays [Resources] (surrounded : Bool) (hn : n.is .op ":" = true)
    (ha : ∀ x ∈ a, isCode x = true) :
    Stays n us ds (exportedContent surrounded) a fun _ _ => True := by
  have hk := kind_of_is hn
  refine exportedContent_of_content (by simp [hk]) ha ?_
  refine (exportContent_stays surrounded hk (by rw [value_of_is hn]; decide) ha).mono ?_
  intro v b _ h hv
  obtain ⟨hs,x,c,hb,hx⟩ := h hv
  refine ⟨hs,?_⟩
  cases b with
  | nil =>
    rw [← (List.cons.inj hb).1,value_of_is hn] at hx
    exact absurd hx (by decide)
  | cons y b => exact ⟨y,b,rfl,(List.cons.inj hb).1 ▸ hx⟩

theorem exportedContent_stays_closed [Resources] {c : Token} {post : List Token} (surrounded : Bool)
    (hn : n.kind ≠ .comment) (hc : c.is .op ")" = true) (ha : ∀ x ∈ a ++ c :: post, isCode x = true) :
    Stays n us ds (exportedContent surrounded) (a ++ c :: post) fun _ _ => True := by
  refine exportedContent_of_content hn ha ?_
  refine Stays.widen (exportContent_stays surrounded (kind_of_is hc) (by rw [value_of_is hc]; decide)
    fun x hx => ha x (List.mem_append_left _ hx)) ?_
  intro v b h hv
  obtain ⟨hs,x,d,hb,hx⟩ := h hv
  exact ⟨hs,x,d ++ post,by rw [← List.cons_append,← hb]; simp,hx⟩

theorem exportedNames_of_content [Resources] (ht : t.kind = .op)
    (hn : a = [] → openingBrackets.contains n.value = false)
    (ha : ∀ x ∈ a, isCode x = true) (hbare : Stays n us ds (exportedContent false) a fun _ _ => True)
    (hopen : ∀ x b, a = x :: b → openingBrackets.contains x.value = true →
      Stays n us ds (exportedContent true) b fun _ _ => True) :
    Stays n us ds exportedNames (t :: a) fun _ _ => True := by
  refine Stays.consume_bind ht (by rw [ht]; rfl) (Stays.current_bind ?_ ?_)
  · rintro rfl
    simp only [hn rfl,Bool.false_eq_true,if_false]
    exact hbare
  · rintro x b rfl
    have hcode := ha x (by simp)
    cases hx : openingBrackets.contains x.value with
    | true =>
      simp only [if_true]
      exact Stays.consume_bind (op_of_bracket hcode (.inl hx))
        (inner_of_isInLine (isInLine_of_isCode hcode)) (hopen x b rfl hx)
    | false => exact hbare

theorem exportStatement_of_names [Resources] {fresh : Bool} (ht : t.is .name exportName = true)
    (hn : a = [] → n.value ≠ "=".toList) (hnames : ∀ x b, a = x :: b → x.value = "=".toList →
      Stays n us ds exportedNames (x :: b) fun _ _ => True) :
    Stays n us ds exportStatement (t :: a) (fun _ b => b <:+ a) fresh := by
  refine Stays.head_bind ?_
  simp only [value_of_is ht,ne_eq,not_true_eq_false,if_false]
  refine Stays.open_consume_bind (kind_of_is ht) (freshAfter_name (kind_of_is ht)) (Stays.get_bind fun s _ => ?_)
  split
  · exact Stays.modify (fun _ => rfl) (List.suffix_refl a)
  · refine Stays.current_bind ?_ ?_
    · rintro rfl
      simp only [hn rfl,not_false_eq_true,if_true]
      exact Stays.modify (fun _ => rfl) (List.suffix_refl _)
    · rintro x b rfl
      by_cases hx : x.value = "=".toList
      · simp only [hx,not_true_eq_false,if_false]
        exact (hnames x b rfl hx).mono fun _ _ hb _ => hb
      · simp only [hx,not_false_eq_true,if_true]
        exact Stays.modify (fun _ => rfl) (List.suffix_refl _)

theorem op_of_equals (ht : isCode t = true) (h : t.value = "=".toList) : t.kind = .op := by
  simp only [isCode,Bool.and_eq_true] at ht
  exact op_of_mark ht.2 h (by decide) (by decide)

/-- What follows the name of the export list is read before a colon at the latest. -/
theorem exportStatement_stays [Resources] {fresh : Bool} (ht : t.is .name exportName = true)
    (hn : n.is .op ":" = true) (ha : ∀ x ∈ a, isCode x = true) :
    Stays n us ds exportStatement (t :: a) (fun _ b => b <:+ a) fresh := by
  refine exportStatement_of_names ht (fun _ => by rw [value_of_is hn]; decide) ?_
  rintro x b rfl hx
  have hb : ∀ y ∈ b, isCode y = true := fun y hy => ha y (by simp [hy])
  refine exportedNames_of_content (op_of_equals (ha x (by simp)) hx)
    (fun _ => by rw [value_of_is hn]; decide) hb
    (exportedContent_stays false hn hb) ?_
  rintro y d rfl -
  exact exportedContent_stays true hn fun z hz => hb z (by simp [hz])

theorem exportStatement_stays_closed [Resources] {fresh : Bool} {c : Token} {post : List Token}
    (ht : t.is .name exportName = true) (hn : n.kind ≠ .comment) (hc : c.is .op ")" = true)
    (ha : ∀ x ∈ a ++ c :: post, isCode x = true) :
    Stays n us ds exportStatement (t :: (a ++ c :: post)) (fun _ b => b <:+ a ++ c :: post) fresh := by
  -- A token that is no closing parenthesis stands before the one that closes.
  have hbefore {x : Token} {pre b : List Token} (hb : pre ++ c :: post = x :: b)
      (hx : x.value ≠ ")".toList) : ∃ d, pre = x :: d ∧ b = d ++ c :: post := by
    cases pre with
    | nil =>
      rw [← (List.cons.inj hb).1] at hx
      exact absurd (value_of_is hc) hx
    | cons y d =>
      obtain ⟨rfl,rfl⟩ := List.cons.inj hb
      exact ⟨d,rfl,rfl⟩
  refine exportStatement_of_names ht (by simp) ?_
  intro x b hxb hx
  obtain ⟨d,rfl,rfl⟩ := hbefore hxb (by rw [hx]; decide)
  have hd : ∀ y ∈ d ++ c :: post, isCode y = true := fun y hy => ha y (by simp at hy ⊢; simp [hy])
  refine exportedNames_of_content (op_of_equals (ha x (by simp)) hx) (by simp) hd
    (exportedContent_stays_closed false hn hc hd) ?_
  intro y e hye hy
  obtain ⟨f,rfl,rfl⟩ := hbefore hye (by rintro h; rw [h] at hy; exact absurd hy (by decide))
  exact exportedContent_stays_closed true hn hc fun z hz => hd z (by simp at hz ⊢; simp [hz])

end DocLint.Outline
