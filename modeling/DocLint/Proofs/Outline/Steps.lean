import DocLint.Proofs.Outline.WithinLine

/-!
The steps in which definitions are read. A step at a token is described by what is read behind it:
the ends of lines and blocks, decorators, definitions, and lines of code.
-/

set_option autoImplicit false

namespace DocLint.Outline

/-- From a place on, definitions are read up to another place, however many steps may be taken
beyond the number of tokens. -/
def Yields [Resources] (region : Region) (exporting : Bool) (p : Spot) (found : List Definition) (q : Spot) : Prop :=
  ∀ fuel, p.rest.length < fuel → Runs (definitionsWithin fuel region exporting) p found q

variable {region : Region} {exporting fresh : Bool} {n t : Token} {a ts us : List Token}
  {ds : List Decorator} {found : List Definition} {p q : Spot}

namespace Yields

theorem runs [Resources] (h : Yields region exporting p found q) :
    Runs (definitions region exporting) p found q := by
  refine Runs.get_bind fun s hs => h _ ?_
  rw [← hs]
  exact Nat.lt_succ_self _

theorem nothing [Resources] (h : p.rest = []) : Yields region exporting p [] p := by
  intro fuel hfuel
  cases fuel with
  | zero => omega
  | succ fuel =>
    refine Runs.bind Runs.current? ?_
    rw [h]
    exact Runs.pure

theorem of_at [Resources] (h : ∀ fuel, us.length < fuel → Runs
      (definitionsAt (definitionsWithin fuel) region exporting fresh t) (.before (t :: us) fresh ds)
      found q) :
    Yields region exporting (.before (t :: us) fresh ds) found q := by
  intro fuel hfuel
  cases fuel with
  | zero => omega
  | succ fuel =>
    refine Runs.bind Runs.current? (Runs.get_bind fun s hs => Runs.bind (Runs.note _) ?_)
    rw [(Spot.mk.inj hs).2.2.1]
    exact h fuel (by simpa [Spot.before] using hfuel)

structure Silent (t : Token) : Prop where
  notExport : (t.value == exportName) = false
  notDefinition : ¬ (t.value = "def".toList ∨ t.value = "class".toList)
  notImport : t.value ≠ "from".toList

theorem Silent.of_kind (hw : isWellSpelled t = true) (hk : t.kind ≠ .name) : Silent t where
  notExport := beq_eq_false_iff_ne.mpr fun h => hk (name_of_word hw h (by decide))
  notDefinition := not_or.mpr
    ⟨fun h => hk (name_of_word hw h (by decide)),fun h => hk (name_of_word hw h (by decide))⟩
  notImport := fun h => hk (name_of_word hw h (by decide))

theorem pass_of_move [Resources] {p : Spot} (he : (exporting && t.value == exportName) = false)
    (hd : (t.is .op "@" && fresh) = false)
    (hw : ¬ (t.value = "def".toList ∨ t.value = "class".toList)) (hf : t.value ≠ "from".toList)
    (hk : t.kind ≠ .indent ∧ t.kind ≠ .dedent)
    (hm : Runs move (.before (t :: us) fresh ds) t p) (hp : p.rest.length ≤ us.length)
    (h : Yields region exporting p found q) :
    Yields region exporting (.before (t :: us) fresh ds) found q := by
  refine of_at fun fuel hfuel => ?_
  simp only [definitionsAt,he,hd,hw,hk.1,hk.2,hf,Bool.false_eq_true,if_false]
  exact Runs.bind hm (h fuel (by omega))

theorem lineEnd [Resources] (ht : isFiller t = true) (hw : isWellSpelled t = true) (hus : us ≠ [])
    (h : Yields region exporting (.before us (freshAfter fresh t) ds) found q) :
    Yields region exporting (.before (t :: us) fresh ds) found q := by
  have hk : t.kind ≠ .name ∧ t.kind ≠ .op ∧ t.kind ≠ .indent ∧ t.kind ≠ .dedent := by
    unfold isFiller at ht
    cases hk : t.kind <;> simp_all
  have hs := Silent.of_kind hw hk.1
  refine pass_of_move ?_ ?_ hs.notDefinition hs.notImport hk.2.2 (Runs.move hus) (Nat.le_refl us.length) h
  · rw [hs.notExport,Bool.and_false]
  · rw [is_op_of_kind_ne hk.2.1,Bool.false_and]

theorem endMarker [Resources] (ht : t.kind = .endMarker) (hw : isWellSpelled t = true) :
    Yields region exporting (.before [t] fresh ds) [] ⟨[], t.start.row, false, ds⟩ := by
  have hs := Silent.of_kind hw (by simp [ht])
  have hf : freshAfter fresh t = false := by
    simp [freshAfter,ht,TokenKind.endsStatement,TokenKind.isLogicallyBlank]
  refine pass_of_move ?_ ?_ hs.notDefinition hs.notImport (by simp [ht]) Runs.move_last
    (Nat.zero_le _) (hf ▸ nothing rfl)
  · rw [hs.notExport,Bool.and_false]
  · rw [is_op_of_kind_ne (by simp [ht]),Bool.false_and]

theorem dedent [Resources] (ht : t.kind = .dedent) (hw : isWellSpelled t = true) (hus : us ≠ []) :
    Yields region exporting (.before (t :: us) fresh ds) [] (.before us true ds) := by
  refine of_at fun fuel hfuel => ?_
  have hs := Silent.of_kind hw (by simp [ht])
  have hd : t.is .op "@" = false := is_op_of_kind_ne (by simp [ht])
  have hf : freshAfter fresh t = true := by simp [freshAfter,ht,TokenKind.endsStatement]
  simp only [definitionsAt,hs.notExport,hs.notDefinition,hd,ht,Bool.and_false,Bool.false_and,
    Bool.false_eq_true,if_false,reduceCtorEq,if_true]
  exact Runs.bind (hf ▸ Runs.consume ht hus) Runs.pure

theorem indent [Resources] {inner : List Definition} {vs : List Token} (ht : t.kind = .indent)
    (hw : isWellSpelled t = true) (hus : us ≠ []) (hlt : vs.length ≤ us.length)
    (hi : Yields region false (.before us true ds) inner (.before vs true ds))
    (h : Yields region exporting (.before vs true ds) found q) :
    Yields region exporting (.before (t :: us) fresh ds) (inner ++ found) q := by
  refine of_at fun fuel hfuel => ?_
  have hs := Silent.of_kind hw (by simp [ht])
  have hd : t.is .op "@" = false := is_op_of_kind_ne (by simp [ht])
  have hf : freshAfter fresh t = true := by simp [freshAfter,ht,TokenKind.endsStatement]
  simp only [definitionsAt,hs.notExport,hs.notDefinition,hd,ht,Bool.and_false,Bool.false_and,
    Bool.false_eq_true,if_false,if_true]
  refine Runs.bind (hf ▸ Runs.consume ht hus) (Runs.bind (hi fuel hfuel) ?_)
  exact Runs.bind (h fuel (Nat.lt_of_le_of_lt hlt hfuel)) Runs.pure

theorem decorators [Resources] (l : DecoratorLine) (ls : List DecoratorLine) (ht : opensDecorated t = true)
    (h : Yields region exporting (.before (t :: us) true ((l :: ls).map DecoratorLine.decorator))
      found q) :
    Yields region exporting
      (.before ((l :: ls).flatMap DecoratorLine.tokens ++ t :: us) true []) found q := by
  have hop := l.mark.isOperator
  have hv : (l.mark.token.value == exportName) = false := by
    rw [value_of_is hop]
    decide
  rw [List.flatMap_cons,DecoratorLine.tokens,List.append_assoc,List.cons_append]
  refine of_at fun fuel hfuel => ?_
  simp only [definitionsAt,hv,hop,Bool.and_false,Bool.and_true,Bool.false_eq_true,if_false,if_true]
  refine Runs.bind (Runs.consume (kind_of_is hop) (by simp)) (Runs.bind (decorators_runs l ls ht) ?_)
  refine h fuel ?_
  simp [Spot.before] at hfuel ⊢
  omega

theorem definition [Resources] {d : Definition} {vs : List Token}
    (ht : (t.is .name "def" || t.is .name "class") = true) (hlt : vs.length ≤ us.length)
    (hd : ∀ fuel, us.length < fuel → Runs
      (definitionWith (fun r => definitionsWithin fuel r false) (region.nested (t.value = "class")))
      (.before (t :: us) fresh ds) d (.before vs true []))
    (h : Yields region exporting (.before vs true []) found q) :
    Yields region exporting (.before (t :: us) fresh ds) (d :: found) q := by
  have hv : t.value = "def".toList ∨ t.value = "class".toList := by
    rcases (Bool.or_eq_true _ _).mp ht with ht | ht
    · exact .inl (value_of_is ht)
    · exact .inr (value_of_is ht)
  have hk : t.kind = .name := by
    rcases (Bool.or_eq_true _ _).mp ht with ht | ht <;> exact kind_of_is ht
  have he : (t.value == exportName) = false := by rcases hv with hv | hv <;> rw [hv] <;> decide
  have hop : t.is .op "@" = false := is_op_of_kind_ne (by simp [hk])
  refine of_at fun fuel hfuel => ?_
  simp only [definitionsAt,he,hop,hv,Bool.and_false,Bool.false_and,Bool.false_eq_true,if_false,if_true]
  exact Runs.bind (hd fuel hfuel) (Runs.bind (h fuel (Nat.lt_of_le_of_lt hlt hfuel)) Runs.pure)

/-- What is read inside a line is followed by what is read behind it. -/
theorem of_stays [Resources] {r : Reader Unit} (hr : Stays n us ds r (t :: a) (fun _ b => b <:+ a) fresh)
    (hstep : ∀ next, definitionsAt next region exporting fresh t =
      r >>= fun _ => next region exporting)
    (h : ∀ b, b <:+ a → Yields region exporting (.before (b ++ n :: us) false ds) found q) :
    Yields region exporting (.before (t :: a ++ n :: us) fresh ds) found q := by
  refine of_at fun fuel hfuel s hs => ?_
  obtain ⟨_,b,s₁,h₁,e₁,-,hb⟩ := hr s hs
  have hlt : (b ++ n :: us).length < fuel := by
    have := hb.length_le
    have : (a ++ n :: us).length < fuel := hfuel
    simp only [List.length_append,List.length_cons] at this ⊢
    omega
  obtain ⟨s₂,h₂,e₂⟩ := h b hb fuel hlt s₁ e₁
  refine ⟨s₂,?_,e₂⟩
  rw [hstep]
  change EStateM.bind r _ s = _
  simp only [EStateM.bind,h₁]
  exact h₂

end Yields

/-! ### Definitions -/

theorem takePending_runs :
    Runs takePending (.before us fresh ds) ds (.before us fresh []) := by
  refine Runs.get_bind fun s hs => Runs.bind (Runs.note _) ?_
  rw [(Spot.mk.inj hs).2.2.2]
  refine Runs.bind (Runs.modify fun s hs => ?_) Runs.pure
  obtain ⟨h₁,h₂,h₃,-⟩ := Spot.mk.inj hs
  simp [State.spot,Spot.before,h₁,h₂,h₃]

theorem Head.keyword_kind (h : Head) : h.keyword.kind = .name := by
  rcases (Bool.or_eq_true _ _).mp h.isKeyword with hk | hk <;> exact kind_of_is hk

theorem Opening.isFiller_fillers (o : Opening) : ∀ x ∈ o.fillers, isFiller x = true := by
  intro x hx
  simp only [Opening.fillers,List.mem_append,Option.mem_toList,Option.map_eq_some_iff,List.mem_cons,
    List.mem_map] at hx
  rcases hx with ⟨c,_,rfl⟩ | rfl | ⟨b,_,rfl⟩
  · simp [isFiller,c.isKind]
  · simp [isFiller,o.newline.isKind]
  · exact isFiller_of_blank b.isBlank

theorem Opening.head_fillers (o : Opening) :
    ∃ x xs, o.fillers = x :: xs ∧ (x.kind = .newline ∨ x.kind = .comment) := by
  cases ho : o.remark with
  | none => exact ⟨_,_,by simp only [Opening.fillers,ho]; rfl,.inl o.newline.isKind⟩
  | some c => exact ⟨_,_,by simp only [Opening.fillers,ho]; rfl,.inr c.isKind⟩

variable {nested : Region → Reader (List Definition)} {kind : DefinitionKind}

theorem skipComment_before {i : Token} {bs zs : List Token} (hi : isFiller i = false) :
    ∃ zs' fresh', zs' <:+ zs ∧ Runs skipComment (.before (zs ++ i :: bs) fresh ds)
      (skippedIn (zs.takeWhile isFiller)) (.before (zs' ++ i :: bs) fresh' ds) := by
  have hfs : ∀ x ∈ zs.takeWhile isFiller, isFiller x = true := List.all_eq_true.mp List.all_takeWhile
  have hzs : zs.takeWhile isFiller ++ zs.dropWhile isFiller = zs := List.takeWhile_append_dropWhile
  cases hd : zs.dropWhile isFiller with
  | nil =>
    rw [hd,List.append_nil] at hzs
    obtain ⟨fs,fresh₁,hsuffix,-,hrun⟩ := @skipComment_runs _ bs fresh ds _ hfs hi
    rw [hzs] at hsuffix hrun
    exact ⟨fs,fresh₁,hsuffix,by rwa [hzs]⟩
  | cons x xs =>
    have hx : isFiller x = false := by
      have h := List.head?_dropWhile_not isFiller zs
      rw [hd] at h
      simpa using h
    obtain ⟨fs,fresh₁,⟨gs,hgs⟩,-,hrun⟩ := @skipComment_runs _ (xs ++ i :: bs) fresh ds _ hfs hx
    rw [← List.cons_append,← hd,← List.append_assoc,hzs,← List.append_assoc] at hrun
    refine ⟨fs ++ zs.dropWhile isFiller,fresh₁,⟨gs,?_⟩,hrun⟩
    rw [← List.append_assoc,hgs,hzs]

def bodyOf (nested : Region → Reader (List Definition)) (kind : DefinitionKind) (name : Text)
    (d : Nat → List Definition → Definition) : Reader Definition := do
  let children ← nested (.within kind)
  note (.nestedDone name)
  let stop := (← line) - 1
  note (.definitionDone kind name (← current?))
  return d stop children

/-- A definition is read from its body on, if a comment or the end of a line follows its header. -/
theorem definitionWith_body {k n i y : Token} {ms bs : List Token} {fresh' : Bool}
    {doc : Option Docstring} (hk : k.kind = .name) (hus : us ≠ [])
    (hhead : ∀ f, Runs headerEnd (.before us f ds) () (.before (y :: ms ++ i :: bs) false ds))
    (hy : y.kind = .newline ∨ y.kind = .comment) (hms : ∀ x ∈ y :: ms, x.kind ≠ .indent)
    (hi : i.kind = .indent) (hbs : ∃ x xs, bs = x :: xs ∧ x.kind ≠ .indent)
    (hdoc : Runs docstring (.before bs true ds) doc (.before ts fresh' ds)) :
    Resumes (definitionWith nested kind) (.before (k :: n :: us) fresh ds)
      (bodyOf nested kind n.value fun stop children =>
        { kind, name := n.value, start := k.start.row, stop, decorators := ds, docstring := doc
          skipped := skippedIn ((y :: ms).takeWhile isFiller), children })
      (.before ts fresh' []) := by
  obtain ⟨x,xs,rfl,hx⟩ := hbs
  have hif : isFiller i = false := by simp [isFiller,hi]
  obtain ⟨zs,fresh₁,hzs,hskip⟩ := @skipComment_before false ds i (x :: xs) (y :: ms) hif
  have hleap : Runs (leapfrog .indent) (.before (zs ++ i :: x :: xs) fresh₁ ds) ()
      (.before (x :: xs) true ds) := by
    have hl := @leapfrog_runs i zs (x :: xs) fresh₁ ds .indent none (by simp)
      (fun z hz => by simp [Token.matches,hms z (hzs.subset hz)]) (by simp [Token.matches,hi])
      (by rw [hi]; rfl)
    rwa [hi] at hl
  refine Resumes.bind Runs.line (Resumes.bind (Runs.consume hk (by simp)) ?_)
  refine Resumes.bind Runs.current (Resumes.bind (Runs.note _) (Resumes.bind (Runs.move hus) ?_))
  refine Resumes.bind (hhead _) (Resumes.bind Runs.current ?_)
  simp only [hy,if_true]
  refine Resumes.bind hskip (Resumes.bind hleap (Resumes.bind Runs.current ?_))
  simp only [hx,if_false]
  refine Resumes.bind hdoc (Resumes.bind takePending_runs (Resumes.bind (Runs.note _) ?_))
  exact Resumes.refl

theorem definitionWith_opening (h : Head) (o : Opening) {bs : List Token} {fresh' : Bool}
    {doc : Option Docstring} (hbs : ∃ x xs, bs = x :: xs ∧ x.kind ≠ .indent)
    (hdoc : Runs docstring (.before bs true ds) doc (.before ts fresh' ds)) :
    Resumes (definitionWith nested kind) (.before (h.core ++ (o.tokens ++ bs)) fresh ds)
      (bodyOf nested kind h.name.value fun stop children =>
        { kind, name := h.name.value, start := h.keyword.start.row, stop, decorators := ds
          docstring := doc, skipped := skippedIn o.fillers, children })
      (.before ts fresh' []) := by
  obtain ⟨y,ms,hy,hk⟩ := o.head_fillers
  have hfillers : o.fillers.takeWhile isFiller = o.fillers := by
    simpa using @List.takeWhile_append_of_pos _ _ _ [] o.isFiller_fillers
  have hnot : ∀ x ∈ y :: ms, x.kind ≠ .indent := by
    intro x hx hk
    have hf := o.isFiller_fillers x (hy ▸ hx)
    simp [isFiller,hk] at hf
  have hhead (f : Bool) : Runs headerEnd (.before ((h.signature.map Signature.tokens).getD [] ++
      h.colon.token :: (y :: ms ++ o.indent.token :: bs)) f ds) () _ :=
    headerEnd_runs h.signature h.colon (by simp)
  rw [← hfillers]
  simp only [Head.core,Opening.tokens,List.append_assoc,List.cons_append,List.nil_append,hy]
  exact definitionWith_body h.keyword_kind (by simp) hhead hk hnot o.indent.isKind hbs hdoc

theorem definitionWith_block (h : Head) (o : Opening) {bs vs : List Token} {fresh' : Bool}
    {doc : Option Docstring} (hbs : ∃ x xs, bs = x :: xs ∧ x.kind ≠ .indent)
    (hdoc : Runs docstring (.before bs true ds) doc (.before ts fresh' ds))
    (hin : Runs (nested (.within kind)) (.before ts fresh' []) found (.before vs true [])) :
    Runs (definitionWith nested kind) (.before (h.core ++ (o.tokens ++ bs)) fresh ds)
      { kind, name := h.name.value, start := h.keyword.start.row, stop := rowOf vs - 1
        decorators := ds, docstring := doc, skipped := skippedIn o.fillers, children := found }
      (.before vs true []) := by
  refine (definitionWith_opening h o hbs hdoc).runs ?_
  refine Runs.bind hin (Runs.bind (Runs.note _) (Runs.bind Runs.line ?_))
  exact Runs.bind Runs.current? (Runs.bind (Runs.note _) Runs.pure)

theorem LineBody.head_ne (b : LineBody) : ¬ (b.first.kind = .newline ∨ b.first.kind = .comment) := by
  have h := b.opens
  unfold isFiller at h
  simp only [Bool.or_eq_false_iff,beq_eq_false_iff_ne] at h
  exact not_or.mpr ⟨h.1.2,h.1.1⟩

/-- A body on the line of its header is passed over up to the end of that line. -/
theorem LineBody.leapfrog_runs (b : LineBody) (hus : us ≠ []) :
    Runs (leapfrog .newline) (.before (b.undocumented ++ us) fresh ds) () (.before us true ds) := by
  have hin : ∀ x ∈ b.rest, Token.matches x .newline none = false := by
    have h := b.inside
    simp only [List.any_eq_false,beq_iff_eq] at h
    intro x hx
    simp [Token.matches,h x hx]
  have hfirst : Token.matches b.first .newline none = false := by
    have h := b.head_ne
    simp only [not_or] at h
    simp [Token.matches,h.1]
  have hleap (xs : List Token) (hxs : ∀ x ∈ xs, Token.matches x .newline none = false) :
      Runs (leapfrog .newline) (.before (xs ++ b.newline.token :: us) fresh ds) ()
        (.before us true ds) := by
    have h := @Outline.leapfrog_runs b.newline.token xs us fresh ds .newline none hus hxs
      (by simp [Token.matches,b.newline.isKind]) (by rw [b.newline.isKind]; rfl)
    rwa [b.newline.isKind] at h
  unfold undocumented
  split
  · simpa using hleap b.rest hin
  · simpa [LineBody.tokens] using hleap (b.first :: b.rest) (by simpa using ⟨hfirst,hin⟩)

theorem rowOf_append (h : ts ≠ []) : rowOf (ts ++ us) = rowOf ts := by
  cases ts with
  | nil => exact absurd rfl h
  | cons t ts => rfl

theorem LineBody.undocumented_ne_nil (b : LineBody) : b.undocumented ≠ [] := by
  unfold undocumented
  split <;> simp [LineBody.tokens]

theorem definitionWith_rest {k n : Token} {fs vs : List Token} (b : LineBody) (hk : k.kind = .name)
    (hus : us ≠ []) (hvs : vs ≠ []) (hfs : ∀ x ∈ fs, x.kind.isLogicallyBlank = true)
    (hfirst : ∀ x ∈ fs.head?, x.kind ≠ .comment)
    (hhead : ∀ f, Runs headerEnd (.before us f ds) () (.before (fs ++ (b.tokens ++ vs)) false ds)) :
    Runs (definitionWith nested kind) (.before (k :: n :: us) fresh ds)
      { kind, name := n.value, start := k.start.row, stop := rowOf b.undocumented
        decorators := ds, docstring := docstringOf b.first, skipped := [], children := [] }
      (.before vs true []) := by
  have hfresh : fs.foldl freshAfter false = false := by
    clear hfirst hhead
    induction fs with
    | nil => rfl
    | cons x fs ih =>
      rw [List.foldl_cons,freshAfter_blank (hfs x (by simp))]
      exact ih fun y hy => hfs y (by simp [hy])
  have hdoc : Runs docstring (.before (fs ++ (b.tokens ++ vs)) false ds) (docstringOf b.first)
      (.before (b.undocumented ++ vs) false ds) := by
    refine (Loops.docstring_fillers (fun x hx => isFiller_of_blank (hfs x hx)) (by simp [hvs]) ?_).docstring
    rw [hfresh]
    have hd := @Loops.docstring_head b.first (b.rest ++ b.newline.token :: vs) false ds b.opens (by simp)
    unfold LineBody.undocumented
    split <;> simp_all [LineBody.tokens]
  have hrow : rowOf (b.undocumented ++ vs) = rowOf b.undocumented :=
    rowOf_append b.undocumented_ne_nil
  obtain ⟨y,ys,hy,hnot⟩ : ∃ y ys, fs ++ (b.tokens ++ vs) = y :: ys ∧
      ¬ (y.kind = .newline ∨ y.kind = .comment) := by
    cases fs with
    | nil => exact ⟨b.first,_,rfl,b.head_ne⟩
    | cons y fs =>
      refine ⟨y,_,rfl,not_or.mpr ⟨fun h => ?_,hfirst y rfl⟩⟩
      have hblank := hfs y (by simp)
      simp [h,TokenKind.isLogicallyBlank] at hblank
  rw [hy] at hhead hdoc
  refine Runs.bind Runs.line (Runs.bind (Runs.consume hk (by simp)) ?_)
  refine Runs.bind Runs.current (Runs.bind (Runs.note _) (Runs.bind (Runs.move hus) ?_))
  refine Runs.bind (hhead _) (Runs.bind Runs.current ?_)
  simp only [hnot,if_false]
  refine Runs.bind hdoc (Runs.bind takePending_runs (Runs.bind Runs.line ?_))
  refine Runs.bind (b.leapfrog_runs hvs) (Runs.bind Runs.pure ?_)
  rw [← hrow]
  exact Runs.bind Runs.current? (Runs.bind (Runs.note _) Runs.pure)

theorem definitionWith_line (h : Head) (b : LineBody) (hus : us ≠ []) :
    Runs (definitionWith nested kind) (.before (h.core ++ (b.tokens ++ us)) fresh ds)
      { kind, name := h.name.value, start := h.keyword.start.row, stop := rowOf b.undocumented
        decorators := ds, docstring := docstringOf b.first, skipped := [], children := [] }
      (.before us true []) := by
  simp only [Head.core,List.append_assoc,List.cons_append,List.nil_append]
  refine definitionWith_rest b h.keyword_kind (by simp) hus (List.forall_mem_nil _) (by simp) fun f => ?_
  exact headerEnd_runs h.signature h.colon (by simp [hus])

/-! ### Lines of code -/

theorem suffix_before {x c : Token} {b pre post : List Token} (h : x :: b <:+ pre ++ c :: post)
    (hc : x ≠ c) (hp : x ∉ post) : ∃ d, b = d ++ c :: post ∧ x :: d <:+ pre := by
  obtain ⟨e,he⟩ := h
  rcases List.append_eq_append_iff.mp he with ⟨d,rfl,hd⟩ | ⟨d,rfl,hd⟩
  · cases d with
    | nil => exact absurd (List.cons.inj hd).1 hc
    | cons y d =>
      obtain ⟨rfl,rfl⟩ := List.cons.inj hd
      exact ⟨d,rfl,List.suffix_append e _⟩
  · cases d with
    | nil => exact absurd (List.cons.inj hd).1.symm hc
    | cons y d =>
      have hpost := (List.cons.inj hd).2
      exact absurd (by rw [hpost]; simp) hp

/-- Tokens of a line that opens no definition. What is read behind a word that guides the reader
comes to an end at a colon, behind which only comments follow. -/
structure InLine (a : List Token) : Prop where
  inLine : ∀ x ∈ a, isInLine x = true
  plain : ∀ x ∈ a, (x.is .name "def" || x.is .name "class") = false
  guarded : ∀ x b, x :: b <:+ a → x.value = "from".toList ∨ x.value = exportName →
    ∃ pre c post, b = pre ++ c :: post ∧ c.is .op ":" = true ∧ (∀ y ∈ pre, isCode y = true) ∧
      ∀ y ∈ post, y.kind = .comment

namespace InLine

theorem suffix {b : List Token} (ha : InLine a) (hb : b <:+ a) : InLine b where
  inLine := fun x hx => ha.inLine x (hb.subset hx)
  plain := fun x hx => ha.plain x (hb.subset hx)
  guarded := fun x c hc => ha.guarded x c (hc.trans hb)

theorem wellSpelled {x : Token} (ha : InLine a) (hx : x ∈ a) : isWellSpelled x = true := by
  have h := ha.inLine x hx
  simp only [isInLine,Bool.and_eq_true] at h
  exact h.2

theorem notDefinition {x : Token} (ha : InLine a) (hx : x ∈ a) :
    ¬ (x.value = "def".toList ∨ x.value = "class".toList) := by
  have hp := ha.plain x hx
  simp only [Token.is,Bool.or_eq_false_iff,Bool.and_eq_false_iff,beq_eq_false_iff_ne] at hp
  rintro (h | h)
  · have hn := name_of_word (ha.wellSpelled hx) h (by decide)
    exact hp.1.elim (absurd hn) (absurd h)
  · have hn := name_of_word (ha.wellSpelled hx) h (by decide)
    exact hp.2.elim (absurd hn) (absurd h)

theorem closes {pre post : List Token} {c : Token} (ha : InLine (pre ++ c :: post))
    (hc : c.is .op ":" = true) (hpost : ∀ y ∈ post, y.kind = .comment) :
    closesBrackets (pre ++ c :: post) := by
  intro x b hb hx
  have hxc : x ≠ c := fun h => by
    rw [h,value_of_is hc] at hx
    exact absurd hx (by decide)
  have hxp : x ∉ post := fun h => by
    have hop := op_of_mark (ha.wellSpelled (hb.subset (by simp))) hx (by decide) (by decide)
    simp [hpost x h] at hop
  obtain ⟨d,rfl,-⟩ := suffix_before hb hxc hxp
  exact ⟨d,c,post,rfl,kind_of_is hc,by rw [value_of_is hc]; decide⟩

theorem yields_guide [Resources] (ha : InLine (t :: a)) (hn : n.kind = .newline) (hw : isWellSpelled n = true)
    (hd : (t.is .op "@" && fresh) = false) (hk : t.kind ≠ .indent ∧ t.kind ≠ .dedent)
    (ht : (exporting && t.value == exportName) = true ∨ t.value = "from".toList)
    (h : ∀ b, b <:+ a → Yields region exporting (.before (b ++ n :: us) false ds) found q) :
    Yields region exporting (.before (t :: a ++ n :: us) fresh ds) found q := by
  have hspelled := ha.wellSpelled (List.mem_cons_self)
  have hdef := ha.notDefinition (List.mem_cons_self)
  by_cases he : (exporting && t.value == exportName) = true
  · have hv : t.value = exportName := beq_iff_eq.mp ((Bool.and_eq_true _ _).mp he).2
    obtain ⟨pre,c,post,rfl,hc,hpre,hpost⟩ := ha.guarded t a (List.suffix_refl _) (.inr hv)
    have hname : t.is .name exportName = true := by
      simp [Token.is,hv,name_of_word hspelled hv (by decide)]
    refine Yields.of_stays (r := exportStatement) ?_ (fun next => ?_) h
    · refine Stays.widen (a := t :: pre) (exportStatement_stays hname hc hpre) ?_
      rintro _ b ⟨e,rfl⟩
      exact ⟨e,by simp⟩
    · simp only [definitionsAt,he,if_true]
  · have hf : t.value = "from".toList := ht.resolve_left he
    obtain ⟨pre,c,post,rfl,hc,hpre,hpost⟩ := ha.guarded t a (List.suffix_refl _) (.inl hf)
    have hrest := ha.suffix (List.suffix_cons t _)
    have hname : t.is .name "from" = true := by
      simp only [Token.is,hf,name_of_word hspelled hf (by decide),beq_self_eq_true,Bool.and_self]
    refine Yields.of_stays (r := fromImport) ?_ (fun next => ?_) h
    · exact fromImport_stays hname hn hw (by simp) (hrest.closes hc hpost) hrest.inLine
    · rw [definitionsAt,if_neg he,if_neg (Bool.eq_false_iff.mp hd),if_neg hdef,if_neg hk.1,if_neg hk.2,if_pos hf]

/-- A line that opens no definition is passed over, and what is read behind a guiding word too. -/
theorem yields [Resources] (ha : InLine a) (hn : n.kind = .newline) (hw : isWellSpelled n = true) (hus : us ≠ [])
    (hfirst : fresh = true → ∀ x b, a = x :: b → x.is .op "@" = false ∧ x.kind.isLogicallyBlank = false)
    (h : Yields region exporting (.before us true ds) found q) :
    Yields region exporting (.before (a ++ n :: us) fresh ds) found q := by
  induction hl : a.length using Nat.strongRecOn generalizing a fresh with
  | ind k ih =>
    cases a with
    | nil =>
      have hf : freshAfter fresh n = true := by simp [freshAfter,hn,TokenKind.endsStatement]
      exact Yields.lineEnd (by simp [isFiller,hn]) hw hus (hf ▸ h)
    | cons x a =>
      have hrest (b : List Token) (hb : b <:+ a) :
          Yields region exporting (.before (b ++ n :: us) false ds) found q := by
        refine ih b.length ?_ (ha.suffix (hb.trans (List.suffix_cons x a))) (by simp) rfl
        have := hb.length_le
        simp only [List.length_cons] at hl
        omega
      have hinner := inner_of_isInLine (ha.inLine x List.mem_cons_self)
      have hkind : x.kind ≠ .indent ∧ x.kind ≠ .dedent := by
        constructor <;> intro hk <;> simp [hk,TokenKind.isInner] at hinner
      have hfresh : (x.is .op "@" && fresh) = false ∧ freshAfter fresh x = false := by
        cases fresh with
        | false => exact ⟨Bool.and_false _,freshAfter_code hinner⟩
        | true =>
          obtain ⟨hop,hblank⟩ := hfirst rfl x a rfl
          have hc := freshAfter_code hinner
          simp only [freshAfter,Bool.false_and,Bool.or_false] at hc
          simp only [hop,freshAfter,hc,hblank,Bool.false_and,Bool.and_false,Bool.or_false,and_self]
      by_cases hg : (exporting && x.value == exportName) = true ∨ x.value = "from".toList
      · exact ha.yields_guide hn hw hfresh.1 hkind hg hrest
      · obtain ⟨he,hf⟩ := not_or.mp hg
        refine Yields.pass_of_move (Bool.eq_false_iff.mpr he) hfresh.1
          (ha.notDefinition List.mem_cons_self) hf hkind (Runs.move (by simp)) (Nat.le_refl _) ?_
        rw [hfresh.2]
        exact hrest a (List.suffix_refl a)

end InLine

end DocLint.Outline
