import DocLint.Proofs.Check.SwitchedOff

/-!
The rules that each check is about. No check finds a broken rule of another, so a code tells which check
it comes from.
-/

set_option autoImplicit false

namespace DocLint

def Check.rules : Check → List Rule
  | .missing => [.D100, .D101, .D102, .D103, .D104, .D105, .D106, .D107]
  | .empty => [.D419]
  | .oneLine => [.D200]
  | .functionBlanks => [.D201, .D202]
  | .classBlanks => [.D203, .D204, .D211]
  | .blankAfterSummary => [.D205]
  | .indentation => [.D206, .D207, .D208]
  | .closingQuotes => [.D209]
  | .surroundingBlanks => [.D210]
  | .summaryStart => [.D212, .D213]
  | .quotes => [.D300]
  | .backslashes => [.D301]
  | .period => [.D400]
  | .punctuation => [.D415]
  | .imperativeMood => [.D401, .D401b]
  | .signature => [.D402]
  | .capitalized => [.D403]
  | .overload => [.D418]
  | .startsWithThis => [.D404]
  | .sections =>
    [.D214, .D215, .D405, .D406, .D407, .D408, .D409, .D410, .D411, .D412, .D413, .D414, .D416, .D417]

def Among (rs : List Rule) (findings : List Finding) : Prop := ∀ f ∈ findings, f.rule ∈ rs

section Among

variable {rs : List Rule} {findings more : List Finding} {f : Finding} {r : Rule} {a b : Outcome}
  {d : Docstring} {e : Except CheckFault (List Finding)}

@[simp] theorem among_nil : Among rs [] := by simp [Among]

@[simp] theorem among_cons : Among rs (f :: findings) ↔ f.rule ∈ rs ∧ Among rs findings := by
  simp [Among]

@[simp] theorem among_append : Among rs (findings ++ more) ↔ Among rs findings ∧ Among rs more := by
  simp [Among,or_imp,forall_and]

theorem Among.mono {more : List Rule} (h : Among rs findings) (hsub : rs ⊆ more) : Among more findings :=
  fun f hf => hsub (h f hf)

theorem among_ite {p : Prop} [Decidable p] (h : Among rs findings) (h' : Among rs more) :
    Among rs (if p then findings else more) := by
  split
  · exact h
  · exact h'

@[simp] theorem Rule.plain_rule : r.plain.rule = r := rfl

@[simp] theorem Rule.with_rule (texts : List Text) : (r.with texts).rule = r := rfl

@[simp] theorem Rule.count_rule (n : Nat) : (r.count n).rule = r := rfl

theorem Outcome.ofExcept_among (h : ∀ findings, e = .ok findings → Among rs findings) :
    Among rs (Outcome.ofExcept e).findings := by
  cases e with
  | error fault => exact among_nil
  | ok findings => exact h findings rfl

theorem Outcome.append_among (ha : Among rs a.findings) (hb : Among rs b.findings) :
    Among rs (a ++ b).findings := by
  change Among rs (Outcome.append a b).findings
  unfold Outcome.append
  cases a.fault with
  | some fault => exact ha
  | none => exact among_append.2 ⟨ha,hb⟩

theorem Outcome.concat_among {os : List Outcome} (h : ∀ o ∈ os, Among rs o.findings) :
    Among rs (Outcome.concat os).findings := by
  induction os with
  | nil => exact among_nil
  | cons o os ih =>
    exact append_among (h o (List.mem_cons_self ..)) (ih fun o' ho' => h o' (List.mem_cons_of_mem o ho'))

theorem exists_of_bind_ok {α β : Type} {x : Except CheckFault α} {f : α → Except CheckFault β} {y : β}
    (h : x >>= f = .ok y) : ∃ v, x = .ok v ∧ f v = .ok y := by
  cases x with
  | error fault => cases h
  | ok v => exact ⟨v,rfl,h⟩

theorem exists_of_map_ok {α β : Type} {x : Except CheckFault α} {f : α → β} {y : β}
    (h : x.map f = .ok y) : ∃ v, x = .ok v ∧ f v = y := by
  cases x with
  | error fault => cases h
  | ok v =>
    cases h
    exact ⟨v,rfl,rfl⟩

theorem Docstring.judged_among [Resources] {found : Text → List Finding} (h : ∀ t, Among rs (found t)) :
    Among rs (Outcome.ofExcept (d.judged found)).findings := by
  refine Outcome.ofExcept_among fun findings hf => ?_
  obtain ⟨t,-,rfl⟩ := exists_of_map_ok hf
  exact h t

end Among

namespace Check

variable {o : CheckOptions} {s : Subject} {d : Docstring} {c : Check}

theorem Wording.mem_of_missingRule {r : Rule} (h : Wording.missingRule s = some r) : r ∈ rules .missing := by
  cases s with
  | module m =>
    simp only [Wording.missingRule,Option.some.injEq] at h
    subst h
    split <;> decide
  | definition m ancestors d =>
    simp only [Wording.missingRule] at h
    repeat' split at h
    all_goals cases h
    all_goals decide

theorem Wording.missing_among [Resources] (searchPath : List Path) :
    Among (rules .missing) (Outcome.ofExcept (Wording.missing searchPath s)).findings := by
  unfold Wording.missing
  split
  · exact among_nil
  · cases s.isPublic searchPath with
    | error e => exact among_nil
    | ok isPublic =>
      cases isPublic with
      | false => exact among_nil
      | true =>
        cases hr : Wording.missingRule s with
        | none => exact among_nil
        | some r =>
          simpa [Outcome.ofExcept] using mem_of_missingRule hr

theorem Wording.quotes_among [Resources] : Among (rules .quotes) (Outcome.ofExcept (Wording.quotes d)).findings := by
  refine Outcome.ofExcept_among fun findings h => ?_
  obtain ⟨t,-,h⟩ := exists_of_bind_ok h
  dsimp only at h
  split at h
  · cases h
    exact among_nil
  · obtain ⟨q,-,h⟩ := exists_of_bind_ok h
    cases h
    simp [rules]

theorem Wording.summaryEnd_among [Resources] (r : Rule) (endings : List Char) :
    Among [r] (Outcome.ofExcept (Wording.summaryEnd r endings d)).findings := by
  refine Outcome.ofExcept_among fun findings h => ?_
  obtain ⟨t,-,h⟩ := exists_of_bind_ok h
  split at h
  · cases h
  · cases h
    split <;> simp

theorem Wording.judgedWord_among [Resources] {rs : List Rule} {found : Text → List Finding}
    (h : ∀ word, Among rs (found word)) :
    Among rs (Outcome.ofExcept (Wording.judgedWord found d)).findings := by
  refine Outcome.ofExcept_among fun findings hf => ?_
  obtain ⟨word,-,rfl⟩ := exists_of_map_ok hf
  cases word with
  | none => exact among_nil
  | some word => exact h _

theorem Wording.ofMood_among (word : Text) (verdict : Mood.Verdict) :
    Among (rules .imperativeMood) (Wording.ofMood word verdict) := by
  cases verdict <;> simp [Wording.ofMood,rules]

theorem Wording.capitalized_among [Resources] :
    Among (rules .capitalized) (Outcome.ofExcept (Wording.capitalized d)).findings := by
  refine Outcome.ofExcept_among fun findings h => ?_
  obtain ⟨v,-,h⟩ := exists_of_bind_ok h
  cases v with
  | text t =>
    dsimp only at h
    split at h
    · cases h
    · split at h <;> cases h <;> simp [rules]
  | bytes b =>
    dsimp only at h
    split at h
    · cases h
    · split at h <;> cases h
      exact among_nil

theorem ofDefinition_among {rs : List Rule} {f : Definition → Except CheckFault (List Finding)}
    (h : ∀ x, Among rs (Outcome.ofExcept (f x)).findings) : Among rs (ofDefinition s f).findings := by
  unfold ofDefinition
  cases s.definition? with
  | none => exact among_nil
  | some x => exact h x

theorem Layout.indentation_among : Among (rules .indentation) (Layout.indentation s d).findings := by
  unfold Layout.indentation
  have hfound (isBroken : Bool) {r : Rule} (hr : r ∈ rules .indentation) :
      Among (rules .indentation) (if isBroken then [r.plain] else []) := by
    cases isBroken <;> simp [hr]
  dsimp only
  split
  · exact among_nil
  · refine Outcome.append_among (hfound _ (by decide)) (Outcome.append_among ?_ ?_)
    · refine Outcome.ofExcept_among fun findings h => ?_
      obtain ⟨b,-,rfl⟩ := exists_of_map_ok h
      exact hfound b (by decide)
    · refine Outcome.ofExcept_among fun findings h => ?_
      obtain ⟨b,-,rfl⟩ := exists_of_map_ok h
      exact hfound b (by decide)

namespace Sections

open DocLint.Section (numpyNames googleNames)

def commonRules : List Rule :=
  [.D214, .D215, .D405, .D407, .D408, .D409, .D410, .D411, .D412, .D413, .D414]

theorem contentBehindUnderline_among (name : Text) (following : List Text) (index : Nat) :
    Among commonRules (Outcome.ofExcept (contentBehindUnderline name following index)).findings := by
  refine Outcome.ofExcept_among fun findings h => ?_
  unfold contentBehindUnderline at h
  split at h
  · obtain ⟨line,-,h⟩ := exists_of_bind_ok h
    split at h <;> cases h
    · split <;> simp [commonRules]
    · exact among_nil
  · cases h
    simp [commonRules]

theorem underline_among (name indent : Text) (following : List Text) :
    Among commonRules (underline name indent following).findings := by
  unfold underline
  dsimp only
  split
  · simp [Outcome.ofList,commonRules]
  · split
    · exact among_nil
    · split
      · split <;> simp [Outcome.ofList,commonRules]
      · refine Outcome.append_among ?_ (contentBehindUnderline_among _ _ _)
        simp only [Outcome.ofList,underlineAt,among_append]
        refine ⟨⟨?_,?_⟩,?_⟩ <;> split <;> simp [commonRules]

theorem commonSection_among (names : List Text) (indent : Text) (x : Section) :
    Among commonRules (commonSection names indent x).findings := by
  refine Outcome.append_among ?_ (underline_among _ _ _)
  simp only [Outcome.ofList,among_append]
  refine ⟨⟨⟨?_,?_⟩,?_⟩,?_⟩
  · split <;> simp [commonRules]
  · split <;> simp [commonRules]
  · split
    · exact among_nil
    · cases x.isLast <;> simp [commonRules]
  · split <;> simp [commonRules]

theorem commonRules_subset : commonRules ⊆ rules .sections := by decide

theorem missingParameters_among [Resources] {documented : List Text} {findings : List Finding}
    (h : missingParameters documented s = .ok findings) : Among [.D417] findings := by
  unfold missingParameters at h
  split at h
  · cases h
    exact among_nil
  · split at h
    · cases h
      exact among_nil
    · split at h
      · cases h
      · cases h
        exact among_ite among_nil (by simp)

theorem numpySection_among [Resources] (indent : Text) (x : Section) :
    Among (rules .sections) (numpySection s indent x).findings := by
  refine Outcome.append_among ((commonSection_among _ _ _).mono commonRules_subset) (Outcome.append_among ?_ ?_)
  · dsimp only [Outcome.ofList]
    split <;> simp [rules]
  · split
    · exact Outcome.ofExcept_among fun findings h => (missingParameters_among h).mono (by decide)
    · exact among_nil

theorem googleSection_among [Resources] (indent : Text) (x : Section) :
    Among (rules .sections) (googleSection s indent x).findings := by
  refine Outcome.append_among ((commonSection_among _ _ _).mono commonRules_subset) (Outcome.append_among ?_ ?_)
  · dsimp only [Outcome.ofList]
    split <;> simp [rules]
  · split
    · refine Outcome.ofExcept_among fun findings h => ?_
      obtain ⟨names,-,h⟩ := exists_of_bind_ok h
      exact (missingParameters_among h).mono (by decide)
    · exact among_nil

theorem ofStyle_among {check : Section → Outcome} (h : ∀ x, Among (rules .sections) (check x).findings)
    (found : Option (List Section)) : Among (rules .sections) (ofStyle check found).findings := by
  cases found with
  | none => exact among_nil
  | some found =>
    refine Outcome.concat_among fun o ho => ?_
    obtain ⟨x,-,rfl⟩ := List.mem_map.1 ho
    exact h x

theorem all_among [Resources] : Among (rules .sections) (all s d).findings := by
  unfold all
  dsimp only
  split
  · exact among_nil
  · split
    · exact ofStyle_among (googleSection_among _) _
    · exact ofStyle_among (numpySection_among _) _

end Sections

theorem inspect_among [Resources] : Among c.rules (c.inspect o s d).findings := by
  unfold inspect
  cases c with
  | missing => exact among_nil
  | empty =>
    refine Outcome.ofExcept_among fun findings h => ?_
    rw [Wording.empty_eq] at h
    obtain ⟨v,-,rfl⟩ := exists_of_map_ok h
    split <;> simp [rules]
  | oneLine => exact Docstring.judged_among fun t => by dsimp only; split <;> simp [rules]
  | functionBlanks =>
    simp only [Outcome.ofList,Layout.functionBlanks,among_append]
    constructor <;> split <;> simp [rules]
  | classBlanks =>
    simp only [Outcome.ofList,Layout.classBlanks,among_append]
    refine ⟨⟨?_,?_⟩,?_⟩ <;> split <;> simp [rules]
  | blankAfterSummary =>
    refine Docstring.judged_among fun t => ?_
    split
    · dsimp only
      split <;> simp [rules]
    · exact among_nil
  | indentation => exact Layout.indentation_among
  | closingQuotes => exact Docstring.judged_among fun t => by dsimp only; split <;> simp [rules]
  | surroundingBlanks => exact Docstring.judged_among fun t => by dsimp only; split <;> simp [rules]
  | summaryStart =>
    refine Docstring.judged_among fun t => ?_
    split
    · exact among_nil
    · dsimp only
      split <;> simp [rules]
  | quotes => exact Wording.quotes_among
  | backslashes =>
    simp only [Outcome.ofList,Wording.backslashes]
    split <;> simp [rules]
  | period => exact Wording.summaryEnd_among _ _
  | punctuation => exact Wording.summaryEnd_among _ _
  | imperativeMood =>
    refine ofDefinition_among fun x => ?_
    unfold Wording.imperativeMood
    split
    · exact among_nil
    · exact Wording.judgedWord_among fun word => Wording.ofMood_among word _
  | signature =>
    refine ofDefinition_among fun x => Docstring.judged_among fun t => ?_
    dsimp only
    split <;> simp [rules]
  | capitalized => exact Wording.capitalized_among
  | overload =>
    refine ofDefinition_among fun x => ?_
    simp only [Outcome.ofExcept,Wording.overload]
    split <;> simp [rules]
  | startsWithThis => exact Wording.judgedWord_among fun word => by split <;> simp [rules]
  | sections => exact Sections.all_among

theorem run_among [Resources] : Among c.rules (c.run o s).findings := by
  cases hd : s.docstring with
  | none =>
    cases c with
    | missing => exact Wording.missing_among _
    | _ => simp [run,hd]
  | some d =>
    by_cases hc : c = .missing
    · subst hc
      exact Wording.missing_among _
    · rw [run_of_documented hd hc]
      exact inspect_among

end Check

end DocLint
