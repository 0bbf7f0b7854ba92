import DocLint.Proofs.Answer
import DocLint.Proofs.Check.Rules
import DocLint.Proofs.Outline.LineOrder
import DocLint.Resources.Builtin

/-!
What is reported of each subject. A terminal check that finds something is the only one to be heard;
otherwise all others are, in their order. Subjects are visited in the order in which they stand in the
tree, each of them once. A check that breaks off ends all this: neither the checks behind it nor the
subjects behind its own are reached.
-/

set_option autoImplicit false

namespace DocLint

/-! ### The order of the tree -/

def Definition.subjectAt? (m : Module) (ancestors : List Definition) (d : Definition) :
    List Nat → Option Subject
  | [] => some (.definition m ancestors d)
  | i :: path => d.children[i]?.bind fun c => c.subjectAt? m (d :: ancestors) path

def Module.subjectAt? (m : Module) : List Nat → Option Subject
  | [] => some (.module m)
  | i :: path => m.children[i]?.bind fun d => d.subjectAt? m [] path

/-- Subjects in the order of the paths that lead to them: a path comes before its continuations, and
these before those of the next child. No path is left out, and none is taken twice. -/
structure InPreOrder (reached : List Nat → Option Subject) (subjects : List Subject)
    (paths : List (List Nat)) : Prop where
  ascend : paths.Pairwise (List.Lex (· < ·))
  complete : ∀ path, path ∈ paths ↔ (reached path).isSome = true
  told : subjects.map some = paths.map reached

def childAt? (m : Module) (ancestors ds : List Definition) : List Nat → Option Subject
  | [] => none
  | i :: path => ds[i]?.bind fun d => d.subjectAt? m ancestors path

def pathBehind : List Nat → List Nat
  | [] => []
  | i :: path => (i + 1) :: path

section PreOrder

variable {m : Module} {ancestors ds : List Definition} {d : Definition} {subjects more : List Subject}
  {paths others : List (List Nat)}

theorem lex_pathBehind {p q : List Nat} (h : List.Lex (· < ·) p q) :
    List.Lex (· < ·) (pathBehind p) (pathBehind q) := by
  cases h with
  | nil => exact .nil
  | cons h => exact .cons h
  | rel h => exact .rel (Nat.succ_lt_succ h)

theorem childAt?_pathBehind (p : List Nat) :
    childAt? m ancestors (d :: ds) (pathBehind p) = childAt? m ancestors ds p := by
  cases p with
  | nil => rfl
  | cons i p => rfl

theorem InPreOrder.below {reached below : List Nat → Option Subject} {s : Subject}
    (h : InPreOrder below subjects paths) (hnone : below [] = none) (hnil : reached [] = some s)
    (hcons : ∀ i path, reached (i :: path) = below (i :: path)) :
    InPreOrder reached (s :: subjects) ([] :: paths) := by
  have hne : ∀ p ∈ paths, ∃ i path, p = i :: path := by
    intro p hp
    cases p with
    | nil =>
      have hsome := (h.complete []).mp hp
      simp [hnone] at hsome
    | cons i path => exact ⟨i,path,rfl⟩
  refine ⟨List.pairwise_cons.mpr ⟨fun p hp => ?_,h.ascend⟩,fun p => ?_,?_⟩
  · obtain ⟨i,path,rfl⟩ := hne p hp
    exact .nil
  · cases p with
    | nil => simp [hnil]
    | cons i path => simp [hcons,h.complete]
  · have hsame : paths.map below = paths.map reached := by
      refine List.map_congr_left fun p hp => ?_
      obtain ⟨i,path,rfl⟩ := hne p hp
      rw [hcons]
    rw [List.map_cons,List.map_cons,hnil,h.told,hsame]

theorem InPreOrder.beside (h : InPreOrder (d.subjectAt? m ancestors) subjects paths)
    (h' : InPreOrder (childAt? m ancestors ds) more others) :
    InPreOrder (childAt? m ancestors (d :: ds)) (subjects ++ more)
      (paths.map (0 :: ·) ++ others.map pathBehind) := by
  have hne : [] ∉ others := fun hp => by simpa [childAt?] using (h'.complete []).mp hp
  refine ⟨List.pairwise_append.mpr ⟨?_,?_,?_⟩,fun p => ?_,?_⟩
  · exact List.pairwise_map.mpr (h.ascend.imp .cons)
  · exact List.pairwise_map.mpr (h'.ascend.imp lex_pathBehind)
  · intro p hp q hq
    obtain ⟨p,-,rfl⟩ := List.mem_map.mp hp
    obtain ⟨q,hq',rfl⟩ := List.mem_map.mp hq
    cases q with
    | nil => exact absurd hq' hne
    | cons i q => exact .rel (Nat.succ_pos i)
  · rw [List.mem_append,List.mem_map,List.mem_map]
    constructor
    · rintro (⟨q,hq,rfl⟩ | ⟨q,hq,rfl⟩)
      · exact (h.complete q).mp hq
      · rw [childAt?_pathBehind]
        exact (h'.complete q).mp hq
    · intro hp
      match p with
      | [] => cases hp
      | 0 :: p => exact .inl ⟨p,(h.complete p).mpr hp,rfl⟩
      | (i + 1) :: p => exact .inr ⟨i :: p,(h'.complete (i :: p)).mpr hp,rfl⟩
  · rw [List.map_append,List.map_append,h.told,h'.told,List.map_map,List.map_map]
    refine congr (congrArg _ rfl) (List.map_congr_left fun p _ => ?_)
    exact (childAt?_pathBehind p).symm

mutual

theorem Definition.subjects_inPreOrder : (d : Definition) → (ancestors : List Definition) →
    ∃ paths, InPreOrder (d.subjectAt? m ancestors) (d.subjects m ancestors) paths
  | ⟨kind, name, start, stop, decorators, docstring, skipped, children⟩, ancestors => by
    obtain ⟨paths,h⟩ := childSubjects_inPreOrder children
      (⟨kind,name,start,stop,decorators,docstring,skipped,children⟩ :: ancestors)
    exact ⟨_,h.below rfl rfl fun _ _ => rfl⟩

theorem childSubjects_inPreOrder : (ds : List Definition) → (ancestors : List Definition) →
    ∃ paths, InPreOrder (childAt? m ancestors ds) (childSubjects m ancestors ds) paths
  | [], ancestors => ⟨[],List.Pairwise.nil,fun p => by cases p <;> simp [childAt?],rfl⟩
  | d :: ds, ancestors => by
    obtain ⟨paths,h⟩ := Definition.subjects_inPreOrder d ancestors
    obtain ⟨others,h'⟩ := childSubjects_inPreOrder ds ancestors
    exact ⟨_,h.beside h'⟩

end

theorem Module.subjects_inPreOrder (m : Module) : ∃ paths, InPreOrder m.subjectAt? m.subjects paths := by
  obtain ⟨paths,h⟩ := childSubjects_inPreOrder (m := m) m.children []
  exact ⟨_,h.below rfl rfl fun _ _ => rfl⟩

end PreOrder

/-! ### Verdicts put together -/

namespace Verdict

section Collect

variable {α : Type} {f : α → Verdict} {g : α → List Violation} {xs : List α}

def collect (f : α → Verdict) : List α → Verdict
  | [] => {}
  | x :: xs => f x ++ collect f xs

theorem collect_complete (hg : ∀ x, (f x).fault = none → (f x).violations = g x)
    (h : (collect f xs).fault = none) : (collect f xs).violations = xs.flatMap g := by
  induction xs with
  | nil => rfl
  | cons x xs ih =>
    rw [collect] at h
    have hx := fault_of_append h
    rw [append_of_none hx] at h
    rw [collect,append_of_none hx,List.flatMap_cons,ih h,hg x hx]

theorem collect_broken {e : CheckFault} (hg : ∀ x, (f x).fault = none → (f x).violations = g x)
    (h : (collect f xs).fault = some e) :
    ∃ before x after, xs = before ++ x :: after ∧ (∀ y ∈ before, (f y).fault = none) ∧
      (f x).fault = some e ∧ (collect f xs).violations = before.flatMap g ++ (f x).violations := by
  induction xs with
  | nil => cases h
  | cons x xs ih =>
    rw [collect] at h
    by_cases hx : (f x).fault = none
    · rw [append_of_none hx] at h
      obtain ⟨before,y,after,rfl,hbefore,hy,hv⟩ := ih h
      refine ⟨x :: before,y,after,rfl,List.forall_mem_cons.mpr ⟨hx,hbefore⟩,hy,?_⟩
      rw [collect,append_of_none hx,hv,List.flatMap_cons,List.append_assoc,hg x hx]
    · rw [append_of_fault hx] at h
      refine ⟨[],x,xs,rfl,by simp,h,?_⟩
      rw [collect,append_of_fault hx]
      rfl

end Collect

end Verdict

/-! ### One subject -/

namespace CheckOptions

variable {o : CheckOptions} {s : Subject} {cs : List Check}

def ending [Resources] (o : CheckOptions) (s : Subject) : List Violation :=
  (Check.all.filter Check.isTerminal).flatMap fun c => (o.found s c).violations

/-- What is to be reported of a subject: the finding of a terminal check, or else what all others find
that is not suppressed. -/
def expected [Resources] (o : CheckOptions) (s : Subject) : List Violation :=
  match o.ending s with
  | v :: _ => [v]
  | [] => (Check.all.filter (!·.isTerminal)).flatMap fun c => (o.found s c).violations

theorem ending_eq [Resources] : o.ending s = (o.found s .missing).violations ++ (o.found s .empty).violations := by
  have hterminal : Check.all.filter Check.isTerminal = [.missing, .empty] := rfl
  simp [ending,hterminal]

theorem applyAll_eq_collect [Resources] (ss : List Subject) :
    o.applyAll ss = Verdict.collect (fun s => o.apply s Check.all) ss := by
  induction ss with
  | nil => rfl
  | cons s ss ih => rw [applyAll,Verdict.collect,ih]

/-- Without a finding of a terminal check, all checks are made one after the other. -/
theorem apply_eq_collect [Resources] (h : ∀ c ∈ cs, c.isTerminal = true → (o.found s c).violations = []) :
    o.apply s cs = Verdict.collect (o.found s) cs := by
  induction cs with
  | nil => rfl
  | cons c cs ih =>
    obtain ⟨hc,hcs⟩ := List.forall_mem_cons.mp h
    have hkept : c.isTerminal = false ∨ (o.found s c).violations = [] := by
      cases ht : c.isTerminal with
      | false => exact .inl rfl
      | true => exact .inr (hc ht)
    rw [apply_of_kept hkept,Verdict.collect,ih hcs]

theorem apply_ending [Resources] {v : Violation} {vs : List Violation} (h : o.ending s = v :: vs) :
    o.apply s Check.all = ⟨[v],none⟩ := by
  rw [ending_eq] at h
  rcases found_terminal (o := o) (s := s) (c := .missing) rfl with hmissing | ⟨w,hw⟩
  · rw [hmissing,List.nil_append] at h
    rcases found_terminal (o := o) (s := s) (c := .empty) rfl with hempty | ⟨w,hw⟩
    · rw [hempty] at h
      cases h
    · rw [hw] at h
      cases h
      obtain ⟨-,-,-,hblank⟩ := found_empty hw
      obtain ⟨d,hd,-⟩ := (Option.any_eq_true _ _).mp hblank
      -- A blank docstring is not missing, so the first check says nothing at all.
      rw [Check.all,apply_of_nothing (run_missing hd),← hw]
      exact apply_terminal rfl hw
  · rw [hw] at h
    cases h
    rw [← hw]
    exact apply_terminal rfl hw

theorem expected_of_ending [Resources] {v : Violation} {vs : List Violation} (h : o.ending s = v :: vs) :
    o.expected s = [v] := by
  rw [expected,h]

theorem found_of_ending_nil [Resources] (h : o.ending s = []) :
    ∀ c ∈ Check.all, c.isTerminal = true → (o.found s c).violations = [] := by
  intro c hc ht
  exact List.flatMap_eq_nil_iff.mp h c (List.mem_filter.mpr ⟨hc,ht⟩)

theorem expected_of_nil [Resources] (h : o.ending s = []) :
    o.expected s = Check.all.flatMap fun c => (o.found s c).violations := by
  have hall (f : Check → List Violation) : Check.all.flatMap f =
      f .missing ++ (f .empty ++ (Check.all.filter (!·.isTerminal)).flatMap f) := rfl
  have hnone := found_of_ending_nil h
  rw [hall,hnone .missing (by decide) rfl,hnone .empty (by decide) rfl,expected,h]
  rfl

theorem apply_complete_eq [Resources] (h : (o.apply s Check.all).fault = none) :
    (o.apply s Check.all).violations = o.expected s := by
  cases he : o.ending s with
  | nil =>
    rw [apply_eq_collect (found_of_ending_nil he)] at h ⊢
    rw [Verdict.collect_complete (fun _ _ => rfl) h,expected_of_nil he]
  | cons v vs => rw [apply_ending he,expected_of_ending he]

theorem apply_broken [Resources] {e : CheckFault} (h : (o.apply s Check.all).fault = some e) :
    o.ending s = [] ∧ ∃ made c later, Check.all = made ++ c :: later ∧
      (∀ x ∈ made, (o.found s x).fault = none) ∧ (o.found s c).fault = some e ∧
      (o.apply s Check.all).violations = (made ++ [c]).flatMap fun x => (o.found s x).violations := by
  cases he : o.ending s with
  | nil =>
    rw [apply_eq_collect (found_of_ending_nil he)] at h ⊢
    obtain ⟨made,c,later,hall,hmade,hc,hv⟩ := Verdict.collect_broken (fun _ _ => rfl) h
    exact ⟨rfl,made,c,later,hall,hmade,hc,by simp [hv]⟩
  | cons v vs =>
    rw [apply_ending he] at h
    cases h

end CheckOptions

def terminalRules : List Rule := [.D100, .D101, .D102, .D103, .D104, .D105, .D106, .D107, .D419]

theorem Check.isTerminal_of_rule {c : Check} {r : Rule} (hr : r ∈ c.rules) (h : r ∈ terminalRules) :
    c.isTerminal = true := by
  have hother : ∀ c' : Check, c'.isTerminal = false → ∀ r ∈ c'.rules, r ∉ terminalRules := by
    intro c' hc'
    cases c' with
    | missing => cases hc'
    | empty => cases hc'
    | _ => decide
  cases hc : c.isTerminal with
  | true => rfl
  | false => exact absurd h (hother c hc r hr)

namespace CheckOptions

variable {o : CheckOptions} {s : Subject} {c : Check} {v : Violation}

theorem rule_of_mem_found [Resources] (h : v ∈ (o.found s c).violations) : v.finding.rule ∈ c.rules := by
  unfold found at h
  split at h
  · cases h
  · obtain ⟨f,hf,rfl⟩ := List.mem_map.mp h
    exact Check.run_among f (List.mem_filter.mp hf).1

theorem expected_terminal [Resources] (hv : v ∈ o.expected s) (h : v.finding.rule ∈ terminalRules) :
    o.expected s = [v] := by
  cases he : o.ending s with
  | cons w ws =>
    rw [expected_of_ending he,List.mem_singleton] at hv
    rw [expected_of_ending he,hv]
  | nil =>
    rw [expected,he] at hv
    obtain ⟨c,hc,hfound⟩ := List.mem_flatMap.mp hv
    have hnot := (List.mem_filter.mp hc).2
    rw [Check.isTerminal_of_rule (rule_of_mem_found hfound) h] at hnot
    cases hnot

end CheckOptions

/-- The report on a text. Its subjects are visited in the order of the tree, each once. If no check breaks
off, what is expected is reported of each: the finding of a terminal check alone, or what all others find
that is not suppressed, in the order of the checks. Otherwise this holds of the subjects before the one at
which a check breaks off; of that subject, the findings up to this check are reported, and nothing of those
behind it. -/
theorem checkSource_per_subject [Resources] {o : CheckOptions} {file source : Text} {verdict : Verdict}
    (h : checkSource o file source = .ok verdict) :
    ∃ m, Module.ofText file source = .ok m ∧ (∃ paths, InPreOrder m.subjectAt? m.subjects paths) ∧
      (verdict.fault = none → verdict.violations = m.subjects.flatMap o.expected) ∧
      (∀ e, verdict.fault = some e → ∃ before s after made c later,
        m.subjects = before ++ s :: after ∧ o.ending s = [] ∧ Check.all = made ++ c :: later ∧
        (∀ x ∈ made, (o.found s x).fault = none) ∧ (o.found s c).fault = some e ∧
        verdict.violations = before.flatMap o.expected ++
          (made ++ [c]).flatMap fun x => (o.found s x).violations) ∧
      ∀ s ∈ m.subjects, ∀ v ∈ o.expected s, v.finding.rule ∈ terminalRules → o.expected s = [v] := by
  obtain ⟨m,hm,rfl⟩ := checkSource_eq_ok.mp h
  refine ⟨m,hm,m.subjects_inPreOrder,?_,?_,fun s _ v hv hrule => CheckOptions.expected_terminal hv hrule⟩
  all_goals rw [Module.check,CheckOptions.applyAll_eq_collect]
  · exact Verdict.collect_complete fun _ => CheckOptions.apply_complete_eq
  · intro e he
    obtain ⟨before,s,after,hsplit,-,hs,hv⟩ :=
      Verdict.collect_broken (fun _ => CheckOptions.apply_complete_eq) he
    obtain ⟨hending,made,c,later,hall,hmade,hc,hvs⟩ := CheckOptions.apply_broken hs
    exact ⟨before,s,after,made,c,later,hsplit,hending,hall,hmade,hc,by rw [hv,hvs]⟩

/-- A class with a poor docstring and two methods without one, which is switched off for the first. -/
def mixed : Text := "class A:\n  'x '\n  def f(self):  # noqa: D102\n    pass\n  def g(self): pass\n"

open Resources.Builtin

theorem checkSource_per_subject_mixed : ∃ verdict m, checkSource {} "a.py" mixed = .ok verdict ∧
    Module.ofText "a.py" mixed = .ok m ∧ verdict.fault = none ∧
    verdict.violations = m.subjects.flatMap (CheckOptions.expected {}) ∧
    m.subjects.map (fun s => (CheckOptions.expected {} s).map Violation.code) =
      [Text.literals ["D100"], Text.literals ["D203", "D204", "D210", "D300", "D400", "D415"], [],
        Text.literals ["D102"]] := by
  have hrun : ((Module.ofText "a.py" mixed).toOption.any fun m => (m.check {}).fault == none &&
      m.subjects.map (fun s => (CheckOptions.expected {} s).map Violation.code) ==
        [Text.literals ["D100"], Text.literals ["D203", "D204", "D210", "D300", "D400", "D415"], [],
          Text.literals ["D102"]]) = true := by
    decide +kernel
  obtain ⟨m,hm,hrun⟩ := exists_of_any hrun
  simp only [Bool.and_eq_true,beq_iff_eq] at hrun
  have hv : checkSource {} "a.py" mixed = .ok (m.check {}) := by
    rw [checkSource,hm]
    rfl
  obtain ⟨m',hm',-,hcomplete,-⟩ := checkSource_per_subject hv
  obtain rfl : m = m' := Except.ok.inj (hm.symm.trans hm')
  exact ⟨_,m,hv,hm,hrun.1,hcomplete hrun.1,hrun.2⟩

/-- A function with a blank docstring, of which only this is switched off, before another one. -/
def blankBefore : Text := "def f():  # noqa: D419\n    \"\"\" \"\"\"\n\n\ndef g():\n    pass\n"

theorem blankBefore_not_reached : ∃ verdict m, checkSource {} "a.py" blankBefore = .ok verdict ∧
    Module.ofText "a.py" blankBefore = .ok m ∧ verdict.fault = some .noWord ∧
    verdict.violations.map Violation.code = Text.literals ["D100", "D210"] ∧
    (m.subjects.flatMap (CheckOptions.expected {})).map Violation.code =
      Text.literals ["D100", "D210", "D103"] := by
  have hrun : ((Module.ofText "a.py" blankBefore).toOption.any fun m =>
      (m.check {}).fault == some .noWord &&
        (m.check {}).violations.map Violation.code == Text.literals ["D100", "D210"] &&
        (m.subjects.flatMap (CheckOptions.expected {})).map Violation.code ==
          Text.literals ["D100", "D210", "D103"]) = true := by
    decide +kernel
  obtain ⟨m,hm,hrun⟩ := exists_of_any hrun
  simp only [Bool.and_eq_true,beq_iff_eq] at hrun
  exact ⟨m.check {},m,by rw [checkSource,hm]; rfl,hm,hrun.1.1,hrun.1.2,hrun.2⟩

end DocLint
