import DocLint.Proofs.Outline.Program

/-!
What the readers around definitions do on tokens of a known form.
-/

set_option autoImplicit false

namespace DocLint.Outline

variable {t : Token} {ts us : List Token} {fresh : Bool} {ds : List Decorator}

theorem freshAfter_blank (h : t.kind.isLogicallyBlank = true) : freshAfter fresh t = fresh := by
  unfold freshAfter
  cases hk : t.kind <;> simp_all [TokenKind.isLogicallyBlank,TokenKind.endsStatement]

theorem freshAfter_code (h : t.kind.isInner = true) : freshAfter false t = false := by
  unfold freshAfter
  cases hk : t.kind <;> simp_all [TokenKind.isInner,TokenKind.endsStatement]

theorem isFiller_of_blank (h : t.kind.isLogicallyBlank = true) : isFiller t = true := by
  unfold isFiller
  cases hk : t.kind <;> simp_all [TokenKind.isLogicallyBlank]

namespace Loops

variable {doc : Option Docstring} {p q : Spot}

theorem docstring (h : Loops docstringStep () p doc q) : Runs docstring p doc q :=
  Runs.bind Runs.current? (Runs.bind (Runs.note _) h.runs)

theorem docstring_head (ht : isFiller t = false) (hts : t.kind = .string → ts ≠ []) :
    Loops docstringStep () (.before (t :: ts) fresh ds) (docstringOf t)
      (if t.kind = .string then .before ts false ds else .before (t :: ts) fresh ds) := by
  apply Loops.done
  refine Runs.bind Runs.current ?_
  by_cases hk : t.kind = .string
  · have hf : freshAfter fresh t = false := by
      simp [freshAfter,hk,TokenKind.endsStatement,TokenKind.isLogicallyBlank]
    simp only [ht,Bool.false_eq_true,if_false,hk,if_true,docstringOf]
    rw [← hf]
    exact Runs.bind (Runs.move (hts hk)) Runs.pure
  · simp only [ht,Bool.false_eq_true,if_false,hk,docstringOf]
    exact Runs.pure

theorem docstring_filler (ht : isFiller t = true) (hus : us ≠ [])
    (h : Loops docstringStep () (.before us (freshAfter fresh t) ds) doc q) :
    Loops docstringStep () (.before (t :: us) fresh ds) doc q := by
  refine Loops.next (c := ()) (q := .before us (freshAfter fresh t) ds) ?_ (by simp [Spot.before]) h
  refine Runs.bind Runs.current ?_
  simp only [ht,if_true]
  exact Runs.bind (Runs.move hus) (Runs.bind (Runs.current_head hus) (Runs.bind (Runs.note _) Runs.pure))

theorem docstring_fillers {fs : List Token} (hfs : ∀ x ∈ fs, isFiller x = true) (hus : us ≠ [])
    (h : Loops docstringStep () (.before us (fs.foldl freshAfter fresh) ds) doc q) :
    Loops docstringStep () (.before (fs ++ us) fresh ds) doc q := by
  induction fs generalizing fresh with
  | nil => exact h
  | cons x fs ih =>
    refine docstring_filler (hfs x (by simp)) (by simp [hus]) ?_
    exact ih (fun y hy => hfs y (by simp [hy])) h

theorem docstring_blank (ht : t.kind.isLogicallyBlank = true) (hus : us ≠ [])
    (h : Loops docstringStep () (.before us fresh ds) doc q) :
    Loops docstringStep () (.before (t :: us) fresh ds) doc q :=
  docstring_filler (isFiller_of_blank ht) hus ((freshAfter_blank ht).symm ▸ h)

end Loops

theorem freshAfter_filler (h : isFiller t = true) : freshAfter true t = true := by
  unfold isFiller at h
  unfold freshAfter
  cases hk : t.kind <;> simp_all [TokenKind.isLogicallyBlank,TokenKind.endsStatement]

/-- Comments are read up to the first one that switches codes off, or to what is no comment. -/
theorem skipComment_runs {fs : List Token} (hfs : ∀ x ∈ fs, isFiller x = true)
    (ht : isFiller t = false) :
    ∃ fs' fresh', fs' <:+ fs ∧ (fresh = true → fresh' = true) ∧
      Runs skipComment (.before (fs ++ t :: ts) fresh ds) (skippedIn fs)
        (.before (fs' ++ t :: ts) fresh' ds) := by
  suffices h : ∃ fs' fresh', fs' <:+ fs ∧ (fresh = true → fresh' = true) ∧
      Loops skipStep () (.before (fs ++ t :: ts) fresh ds) (skippedIn fs)
        (.before (fs' ++ t :: ts) fresh' ds) by
    obtain ⟨fs',fresh',hs,hf,hl⟩ := h
    exact ⟨fs',fresh',hs,hf,Loops.runs hl⟩
  induction fs generalizing fresh with
  | nil =>
    refine ⟨[],fresh,List.suffix_refl _,id,Loops.done (Runs.bind Runs.current ?_)⟩
    simp only [ht,Bool.false_eq_true,if_false]
    exact Runs.pure
  | cons x fs ih =>
    have hx := hfs x (by simp)
    have hstep : Runs (skipStep ()) (.before (x :: fs ++ t :: ts) fresh ds)
        (if (skippedAt x).isEmpty then .inl () else .inr (skippedAt x))
        (.before (fs ++ t :: ts) (freshAfter fresh x) ds) := by
      refine Runs.bind Runs.current ?_
      simp only [hx,if_true]
      exact Runs.bind (Runs.move (by simp))
        (Runs.bind (Runs.current_head (by simp)) (Runs.bind (Runs.note _) Runs.pure))
    by_cases hs : (skippedAt x).isEmpty = true
    · obtain ⟨fs',fresh',hsuf,hf,hl⟩ := @ih (freshAfter fresh x) fun y hy => hfs y (by simp [hy])
      refine ⟨fs',fresh',hsuf.trans (List.suffix_cons x fs),?_,?_⟩
      · rintro rfl
        exact hf (freshAfter_filler hx)
      · simp only [skippedIn,hs,if_true] at hstep ⊢
        exact Loops.next hstep (by simp [Spot.before]) hl
    · refine ⟨fs,freshAfter fresh x,List.suffix_cons x fs,?_,?_⟩
      · rintro rfl
        exact freshAfter_filler hx
      · simp only [skippedIn,hs] at hstep ⊢
        exact Loops.done hstep

/-! ### Decorators -/

theorem is_op_of_kind_ne {v : Text} (h : t.kind ≠ .op) : t.is .op v = false := by
  simp [Token.is,h]

theorem extend_lineEnd (d : OpenDecorator) (h : t.kind = .newline ∨ t.kind = .nl) :
    d.extend t = d := by
  have ho : t.kind ≠ .op := by rcases h with h | h <;> simp [h]
  rcases h with h | h <;> simp [OpenDecorator.extend,is_op_of_kind_ne ho,h]

theorem foldl_extend_lineEnds (d : OpenDecorator) (h : ∀ x ∈ ts, x.kind = .newline ∨ x.kind = .nl) :
    ts.foldl OpenDecorator.extend d = d := by
  induction ts with
  | nil => rfl
  | cons x ts ih =>
    rw [List.foldl_cons,extend_lineEnd d (h x (by simp))]
    exact ih fun y hy => h y (by simp [hy])

theorem plainText_cons (t : Token) (ts : List Token) :
    plainText (t :: ts) = (if t.is .op "(" || t.is .op ")" || t.kind == .nl then [] else t.value) ++
      plainText ts := by
  unfold plainText
  cases h : t.is .op "(" || t.is .op ")" || t.kind == .nl <;>
    simp only [List.filter_cons,h,Bool.not_false,Bool.not_true,Bool.false_eq_true,if_true,if_false,
      List.flatMap_cons,List.nil_append]

/-- Everything up to the first parenthesis goes to the name, everything behind it to the
arguments. -/
theorem foldl_extend (d : OpenDecorator) (h : ∀ x ∈ ts, x.kind ≠ .newline) :
    (ts.foldl OpenDecorator.extend d).close =
      if d.inArguments then ⟨d.name, d.arguments ++ plainText ts⟩
      else ⟨d.name ++ plainText (ts.takeWhile fun t => !t.is .op "("),
        d.arguments ++ plainText (ts.dropWhile fun t => !t.is .op "(")⟩ := by
  induction ts generalizing d with
  | nil => cases ha : d.inArguments <;> simp [OpenDecorator.close,plainText]
  | cons x ts ih =>
    have hx := h x (by simp)
    rw [List.foldl_cons,ih _ fun y hy => h y (by simp [hy])]
    by_cases ho : x.is .op "(" = true
    · cases ha : d.inArguments <;> simp_all [OpenDecorator.extend,plainText]
    · by_cases hc : (x.is .op ")" || x.kind == .nl) = true
      · cases ha : d.inArguments <;>
          simp_all [OpenDecorator.extend,plainText_cons]
      · cases ha : d.inArguments <;>
          simp_all [OpenDecorator.extend,plainText_cons]

theorem DecoratorLine.close_behind (l : DecoratorLine) :
    (l.behind.foldl OpenDecorator.extend {}).close = l.decorator := by
  have hin : ∀ x ∈ l.inside, x.kind ≠ .newline := by
    have h := l.plain
    simp only [List.any_eq_false,Bool.or_eq_true,beq_iff_eq,not_or] at h
    exact fun x hx => (h x hx).1.1.2
  have hout : ∀ x ∈ l.newline.token :: l.gap.map (·.token), x.kind = .newline ∨ x.kind = .nl := by
    simp only [List.mem_cons,List.mem_map,forall_eq_or_imp,forall_exists_index,and_imp]
    exact ⟨.inl l.newline.isKind,fun x t _ h => .inr (h ▸ t.isKind)⟩
  rw [behind,List.foldl_append,foldl_extend_lineEnds _ hout,foldl_extend _ hin]
  rfl

theorem DecoratorLine.fresh_behind (l : DecoratorLine) (fresh : Bool) :
    l.behind.foldl freshAfter fresh = true := by
  have hn : ∀ f, freshAfter f l.newline.token = true := fun f => by
    simp [freshAfter,l.newline.isKind,TokenKind.endsStatement]
  have hg : ∀ gap : List (TokenOf .nl), (gap.map (·.token)).foldl freshAfter true = true := by
    intro gap
    induction gap with
    | nil => rfl
    | cons g gap ih =>
      have hb : g.token.kind.isLogicallyBlank = true := by rw [g.isKind]; rfl
      rw [List.map_cons,List.foldl_cons,freshAfter_blank hb,ih]
  rw [behind,List.foldl_append,List.foldl_cons,hn,hg]

theorem Loops.decorator {d : OpenDecorator} {b : Unit} {q : Spot}
    (hts : ∀ x ∈ ts, opensDecorated x = false ∧ x.is .op "@" = false) (hus : us ≠ [])
    (h : Loops decoratorStep (ts.foldl OpenDecorator.extend d)
      (.before us (ts.foldl freshAfter fresh) ds) b q) :
    Loops decoratorStep d (.before (ts ++ us) fresh ds) b q := by
  induction ts generalizing d fresh with
  | nil => exact h
  | cons x ts ih =>
    obtain ⟨ho,ha⟩ := hts x (by simp)
    refine Loops.next (c := d.extend x) (q := .before (ts ++ us) (freshAfter fresh x) ds) ?_
      (by simp [Spot.before]) (ih (fun y hy => hts y (by simp [hy])) h)
    refine Runs.bind Runs.current? (Runs.bind (Runs.note _) ?_)
    simp only [ho,ha,Bool.false_eq_true,if_false]
    exact Runs.bind (Runs.move (by simp [hus])) Runs.pure

theorem DecoratorLine.plain_behind (l : DecoratorLine) :
    ∀ x ∈ l.behind, opensDecorated x = false ∧ x.is .op "@" = false := by
  have hl := l.plain
  simp only [List.any_eq_false,Bool.or_eq_true,not_or,Bool.not_eq_true] at hl
  have hk : ∀ x : Token, x.kind ≠ .name → x.kind ≠ .op →
      opensDecorated x = false ∧ x.is .op "@" = false := fun x hn ho => by
    simp [opensDecorated,hn,is_op_of_kind_ne ho]
  intro x hx
  simp only [behind,List.mem_append,List.mem_cons,List.mem_map] at hx
  rcases hx with hx | rfl | ⟨g,_,rfl⟩
  · exact ⟨(hl x hx).2,(hl x hx).1.2⟩
  · exact hk _ (by simp [l.newline.isKind]) (by simp [l.newline.isKind])
  · exact hk _ (by simp [g.isKind]) (by simp [g.isKind])

theorem addDecorator_runs (d : Decorator) :
    Runs (addDecorator d) (.before us fresh ds) () (.before us fresh (ds ++ [d])) :=
  Runs.modify fun s hs => by
    obtain ⟨h₁,h₂,h₃,h₄⟩ := Spot.mk.inj hs
    simp [State.spot,Spot.before,h₁,h₂,h₃,h₄]

/-- Behind the mark of a first decorator, all decorators up to the definition are read. -/
theorem decorators_runs (l : DecoratorLine) (ls : List DecoratorLine) (ht : opensDecorated t = true) :
    Runs decorators (.before (l.behind ++ (ls.flatMap DecoratorLine.tokens ++ t :: ts)) fresh ds) ()
      (.before (t :: ts) true (ds ++ (l :: ls).map DecoratorLine.decorator)) := by
  apply Loops.runs
  induction ls generalizing l fresh ds with
  | nil =>
    refine Loops.decorator l.plain_behind (by simp) (Loops.done ?_)
    rw [l.fresh_behind]
    refine Runs.bind Runs.current? (Runs.bind (Runs.note _) ?_)
    simp only [ht,if_true,l.close_behind]
    exact Runs.bind (addDecorator_runs _) Runs.pure
  | cons m ls ih =>
    have hm : opensDecorated m.mark.token = false := by
      have h := m.mark.isOperator
      simp only [Token.is,Bool.and_eq_true,beq_iff_eq] at h
      simp [opensDecorated,h.1]
    refine Loops.decorator l.plain_behind (by simp [DecoratorLine.tokens]) ?_
    refine Loops.next (c := {}) (q := .before (m.behind ++ (ls.flatMap DecoratorLine.tokens ++ t :: ts))
      (freshAfter true m.mark.token) (ds ++ [l.decorator])) ?_ ?_ ?_
    · rw [l.fresh_behind,List.flatMap_cons,List.append_assoc]
      refine Runs.bind Runs.current? (Runs.bind (Runs.note _) ?_)
      simp only [hm,m.mark.isOperator,Bool.false_eq_true,if_false,if_true,l.close_behind]
      exact Runs.bind (addDecorator_runs _) (Runs.bind (Runs.move (by simp)) Runs.pure)
    · simp [Spot.before,DecoratorLine.tokens]
    · have h := @ih (freshAfter true m.mark.token) (ds ++ [l.decorator]) m
      simpa using h

/-! ### Headers of definitions -/

theorem kind_of_is {k : TokenKind} {v : Text} (h : t.is k v = true) : t.kind = k := by
  simp only [Token.is,Bool.and_eq_true,beq_iff_eq] at h
  exact h.1

theorem value_of_is {k : TokenKind} {v : Text} (h : t.is k v = true) : t.value = v := by
  simp only [Token.is,Bool.and_eq_true,beq_iff_eq] at h
  exact h.2

theorem is_op_ne {v w : Text} (h : t.is .op v = true) (hvw : v ≠ w) : t.is .op w = false := by
  simp only [Token.is,Bool.and_eq_true,beq_iff_eq] at h
  simp [Token.is,h.2,hvw]

/-- Inside `depth` parentheses and one more, balanced tokens lead to the one that closes it. -/
theorem Loops.parameters {depth : Nat} (hts : isBalanced depth ts = true)
    (ht : t.is .op ")" = true) :
    Loops parameterStep (depth + 1 : Nat) (.before (ts ++ t :: us) fresh ds) ()
      (.before (t :: us) (ts.foldl freshAfter fresh) ds) := by
  induction ts generalizing depth fresh with
  | nil =>
    have hd : depth = 0 := by simpa [isBalanced] using hts
    subst hd
    refine Loops.done (Runs.bind Runs.current ?_)
    simp only [ht,Bool.true_and]
    exact Runs.pure
  | cons x ts ih =>
    have hstep {level : Int} (h : (x.is .op ")" && (depth + 1 : Nat) == (1 : Int)) = false)
        (hl : (if x.is .op "(" then ((depth + 1 : Nat) : Int) + 1 else if x.is .op ")" then
          ((depth + 1 : Nat) : Int) - 1 else ((depth + 1 : Nat) : Int)) = level) :
        Runs (parameterStep (depth + 1 : Nat)) (.before (x :: ts ++ t :: us) fresh ds) (.inl level)
          (.before (ts ++ t :: us) (freshAfter fresh x) ds) := by
      refine Runs.bind Runs.current ?_
      simp only [h,hl,Bool.false_eq_true,if_false]
      exact Runs.bind (Runs.move (by simp)) Runs.pure
    by_cases ho : x.is .op "(" = true
    · have hc := is_op_ne ho (w := ")") (by decide)
      have hb : isBalanced (depth + 1) ts = true := by simpa only [isBalanced,ho,if_true] using hts
      refine Loops.next (c := ((depth + 1 + 1 : Nat) : Int)) (hstep ?_ ?_) (by simp [Spot.before])
        (ih hb)
      · simp only [hc,Bool.false_and]
      · simp only [ho,if_true]
        omega
    · by_cases hc : x.is .op ")" = true
      · cases depth with
        | zero => simp only [isBalanced,ho,hc,if_true,if_false,Bool.false_eq_true] at hts
        | succ d =>
          have hb : isBalanced d ts = true := by
            simpa only [isBalanced,ho,hc,if_true,if_false,Bool.false_eq_true] using hts
          refine Loops.next (c := ((d + 1 : Nat) : Int)) (hstep ?_ ?_) (by simp [Spot.before])
            (ih hb)
          · have hn : ((d + 1 + 1 : Nat) : Int) ≠ 1 := by omega
            simp only [hc,Bool.true_and,beq_eq_false_iff_ne,ne_eq]
            exact hn
          · simp only [ho,hc,if_true,if_false,Bool.false_eq_true]
            omega
      · have hb : isBalanced depth ts = true := by
          simpa only [isBalanced,ho,hc,if_false,Bool.false_eq_true] using hts
        refine Loops.next (hstep ?_ ?_) (by simp [Spot.before]) (ih hb)
        · simp only [hc,Bool.false_and]
        · simp only [ho,hc,if_false,Bool.false_eq_true]

theorem parameters_runs {x c : Token} (hx : x.is .op "(" = true) (hts : isBalanced 0 ts = true)
    (hc : c.is .op ")" = true) :
    Runs parameters (.before (x :: ts ++ c :: us) fresh ds) ()
      (.before (c :: us) ((x :: ts).foldl freshAfter fresh) ds) := by
  apply Loops.runs
  refine Loops.next (c := (1 : Int)) (q := .before (ts ++ c :: us) (freshAfter fresh x) ds) ?_
    (by simp [Spot.before]) (Loops.parameters hts hc)
  have hn := is_op_ne hx (w := ")") (by decide)
  refine Runs.bind Runs.current ?_
  simp only [hx,hn,Bool.false_and,Bool.false_eq_true,if_false,if_true]
  exact Runs.bind (Runs.move (by simp)) Runs.pure

theorem headerEnd_signed {x c colon : Token} {pre : List Token} (hx : x.is .op "(" = true)
    (hts : isBalanced 0 ts = true) (hc : c.is .op ")" = true) (hpre : ∀ y ∈ pre, y.is .op ":" = false)
    (hcolon : colon.is .op ":" = true) (hus : us ≠ []) :
    Runs headerEnd (.before (x :: ts ++ c :: (pre ++ colon :: us)) fresh ds) () (.before us false ds) := by
  have hn := is_op_ne hc (w := ":") (by decide)
  refine Runs.bind Runs.current ?_
  simp only [hx,if_true]
  refine Runs.bind (parameters_runs hx hts hc) (Runs.bind Runs.current ?_)
  simp only [hn,Bool.false_eq_true,if_false]
  have hleap (f : Bool) : Runs (leapfrog .op (some ":")) (.before ((c :: pre) ++ colon :: us) f ds) ()
      (.before us colon.kind.endsStatement ds) := by
    refine leapfrog_runs hus (fun y hy => ?_) hcolon (by rw [kind_of_is hcolon]; rfl)
    rcases List.mem_cons.mp hy with rfl | hy
    · exact hn
    · exact hpre y hy
  rw [kind_of_is hcolon] at hleap
  exact hleap _

theorem headerEnd_runs (sig : Option Signature) (colon : Operator ":") (hus : us ≠ []) :
    Runs headerEnd (.before ((sig.map Signature.tokens).getD [] ++ colon.token :: us) fresh ds) ()
      (.before us false ds) := by
  cases sig with
  | none =>
    have hk := kind_of_is colon.isOperator
    have hfresh : freshAfter fresh colon.token = false := by
      simp [freshAfter,hk,TokenKind.endsStatement,TokenKind.isLogicallyBlank]
    have ho := is_op_ne colon.isOperator (w := "(") (by decide)
    refine Runs.bind Runs.current ?_
    simp only [ho,Bool.false_eq_true,if_false]
    refine Runs.bind Runs.current ?_
    simp only [colon.isOperator,if_true]
    rw [← hfresh]
    exact Runs.consume hk hus
  | some sig =>
    simp only [Option.map_some,Option.getD_some,Signature.tokens,List.append_assoc,List.cons_append]
    have hplain := sig.plain
    simp only [List.any_eq_false,Bool.not_eq_true] at hplain
    exact headerEnd_signed sig.opening.isOperator sig.balanced sig.closing.isOperator hplain
      colon.isOperator hus

end DocLint.Outline
