import DocLint.Proofs.Check.ReportOrder
import DocLint.Proofs.Check.Rules
import DocLint.Proofs.Publicity
import DocLint.Resources.Builtin

/-!
Publicity along the definitions of a module. A public definition stands inside public definitions only,
and a missing docstring is reported of public subjects only. Whether the module is public is not asked for
its definitions, though: a private module may hold public ones.
-/

set_option autoImplicit false

namespace DocLint

variable {m : Module} {ancestors ps : List Definition} {d p : Definition} {o : CheckOptions}
  {s : Subject} {v : Violation}

theorem Definition.isPublic_parent [Resources] (hd : Placed (.inside (p :: ps)) d)
    (h : d.isPublic m (p :: ps) = .ok true) : p.isPublic m ps = .ok true := by
  rcases hd.kind_inner with hkind | ⟨hkind,-⟩ | ⟨hkind,-⟩
  · rw [isPublic_nestedClass hkind] at h
    split at h
    · cases h
    · split at h
      · exact h
      · cases h
  · rw [isPublic_method hkind] at h
    cases ha : d.isAccessor with
    | error e => simp [ha,Except.bind] at h
    | ok accessor =>
      cases hp : p.isPublic m ps with
      | error e => cases accessor <;> simp [ha,hp,Except.bind,Except.map] at h
      | ok b => cases accessor <;> simp_all [Except.bind,Except.map]
  · simp [isPublic_nestedFunction hkind] at h

/-- All definitions around a public one are public, and the outermost is directly in the module. -/
theorem Stands.isPublic_around [Resources] (h : Stands m ancestors d) (hm : ∀ x ∈ m.children, Placed .module x)
    (hd : d.isPublic m ancestors = .ok true) :
    (∀ p ps, p :: ps <:+ ancestors → p.isPublic m ps = .ok true) ∧
      ∃ x ∈ m.children, x.isPublic m [] = .ok true := by
  induction h with
  | outer child => exact ⟨by simp,_,child,hd⟩
  | @inner qs q d parent child ih =>
    have hplaced : Placed (.inside (q :: qs)) d := (Stands.inner parent child).placed hm
    have hq := Definition.isPublic_parent hplaced hd
    obtain ⟨haround,houter⟩ := ih hq
    refine ⟨fun p ps hsuffix => ?_,houter⟩
    rcases List.suffix_cons_iff.1 hsuffix with heq | hsuffix
    · cases heq
      exact hq
    · exact haround p ps hsuffix

def Violation.isMissing (v : Violation) : Bool := "D1".toList.isPrefixOf v.code

theorem Check.eq_missing_of_rule {c : Check} {r : Rule} (hr : r ∈ c.rules)
    (h : "D1".toList.isPrefixOf r.code = true) : c = .missing := by
  have hother : ∀ c' : Check, c' ≠ .missing → ∀ r ∈ c'.rules, "D1".toList.isPrefixOf r.code = false := by
    intro c' hc'
    cases c' with
    | missing => exact absurd rfl hc'
    | _ => decide
  by_cases hc : c = .missing
  · exact hc
  · rw [hother c hc r hr] at h
    cases h

theorem CheckOptions.public_of_isMissing [Resources] {cs : List Check} (h : v ∈ (o.apply s cs).violations)
    (hv : v.isMissing = true) : s.docstring = none ∧ s.isPublic o.searchPath = .ok true := by
  obtain ⟨c,-,hfound⟩ := exists_found_of_mem h
  unfold found at hfound
  split at hfound
  · cases hfound
  · obtain ⟨f,hf,rfl⟩ := List.mem_map.1 hfound
    have hfinding := (List.mem_filter.1 hf).1
    obtain rfl := Check.eq_missing_of_rule (Check.run_among f hfinding) hv
    simp only [Check.run,Check.Wording.missing] at hfinding
    split at hfinding
    · cases hfinding
    · rename_i hdocumented
      split at hfinding
      · cases hfinding
      · rename_i isPublic hpublic
        cases isPublic with
        | false => cases hfinding
        | true =>
          refine ⟨?_,hpublic⟩
          simpa [Check.Wording.hasDocstring] using hdocumented

/-- All definitions around a public one are public, and only such are reported for a missing docstring.
Whether the module is public is asked for the module alone. -/
theorem public_inside_public [Resources] {name source : Text} {m : Module} (h : Module.ofText name source = .ok m) :
    (∀ ancestors d, .definition m ancestors d ∈ m.subjects → d.isPublic m ancestors = .ok true →
      ∀ p ps, p :: ps <:+ ancestors → p.isPublic m ps = .ok true) ∧
    (∀ o : CheckOptions, ∀ v ∈ (m.check o).violations, v.isMissing = true →
      v.subject.docstring = none ∧ v.subject.isPublic o.searchPath = .ok true ∧
      ∀ ancestors d, v.subject = .definition m ancestors d →
        ∀ p ps, p :: ps <:+ ancestors → p.isPublic m ps = .ok true) ∧
    ∀ searchPath : List Path,
      (∀ ancestors d, .definition m ancestors d ∈ m.subjects → d.isPublic m ancestors = .ok true →
        m.isPublic searchPath = true) ↔
      m.isPublic searchPath = true ∨ ∀ d ∈ m.children, d.isPublic m [] ≠ .ok true := by
  have hplaced := Module.placed_of_ofText h
  have haround (ancestors : List Definition) (d : Definition) (hd : .definition m ancestors d ∈ m.subjects)
      (hpublic : d.isPublic m ancestors = .ok true) :=
    (Module.stands_of_mem hd).isPublic_around hplaced hpublic
  refine ⟨fun ancestors d hd hpublic => (haround ancestors d hd hpublic).1,?_,?_⟩
  · intro o v hv hmissing
    obtain ⟨s,hs,hfound⟩ := CheckOptions.exists_apply_of_mem hv
    obtain rfl := CheckOptions.subject_of_mem hfound
    obtain ⟨hdocstring,hpublic⟩ := CheckOptions.public_of_isMissing hfound hmissing
    refine ⟨hdocstring,hpublic,fun ancestors d heq => ?_⟩
    rw [heq] at hs hpublic
    exact (haround ancestors d hs hpublic).1
  · intro searchPath
    constructor
    · intro hclosed
      by_cases hm : m.isPublic searchPath = true
      · exact .inl hm
      · exact .inr fun d hd hpublic => hm (hclosed [] d (Module.mem_subjects_of_child hd) hpublic)
    · rintro (hm | hnone) ancestors d hd hpublic
      · exact hm
      · obtain ⟨x,hx,hxpublic⟩ := (haround ancestors d hd hpublic).2
        exact absurd hxpublic (hnone x hx)

def innerMethod : Text := "class A:\n  class B:\n    def f(self): pass\n"

def Subject.isPublicAt [Resources] (depth : Nat) : Subject → Bool
  | .module _ => false
  | .definition m ancestors d => ancestors.length == depth && (d.isPublic m ancestors).toOption == some true

open Resources.Builtin

theorem public_inside_public_innerMethod : ∃ m, Module.ofText "a.py" innerMethod = .ok m ∧
    (∃ ancestors d, .definition m ancestors d ∈ m.subjects ∧ ancestors.length = 2 ∧
      d.isPublic m ancestors = .ok true ∧ ∀ p ps, p :: ps <:+ ancestors → p.isPublic m ps = .ok true) ∧
    ∃ v ∈ (m.check {}).violations, v.isMissing = true ∧ v.subject.isPublic [] = .ok true := by
  have hrun : ((Module.ofText "a.py" innerMethod).toOption.any fun m =>
      m.subjects.any (Subject.isPublicAt 2) && (m.check {}).violations.any Violation.isMissing) = true := by
    decide +kernel
  obtain ⟨m,hm,hrun⟩ := exists_of_any hrun
  rw [Bool.and_eq_true,List.any_eq_true,List.any_eq_true] at hrun
  obtain ⟨⟨s,hs,hpublic⟩,v,hv,hmissing⟩ := hrun
  obtain ⟨haround,hreported,-⟩ := public_inside_public hm
  refine ⟨m,hm,?_,v,hv,hmissing,(hreported {} v hv hmissing).2.1⟩
  cases s with
  | module m' => cases hpublic
  | definition m' ancestors d =>
    obtain rfl : m' = m := Module.root_of_mem hs
    simp only [Subject.isPublicAt,Bool.and_eq_true,beq_iff_eq] at hpublic
    have hd := toOption_eq_some hpublic.2
    exact ⟨ancestors,d,hs,hpublic.1,hd,haround ancestors d hs hd⟩

def plainFunction : Text := "def f():\n    pass\n"

/-- A function directly in a private module is public, and its missing docstring is reported. -/
theorem public_in_private_module : ∃ m d, Module.ofText "_private.py" plainFunction = .ok m ∧
    .definition m [] d ∈ m.subjects ∧ d.isPublic m [] = .ok true ∧ m.isPublic [] = false ∧
    (m.check {}).violations.map Violation.code = [Rule.D103.code] := by
  have hrun : ((Module.ofText "_private.py" plainFunction).toOption.any fun m =>
      m.children.any (fun d => (d.isPublic m []).toOption == some true) && !m.isPublic [] &&
        (m.check {}).violations.map Violation.code == [Rule.D103.code]) = true := by
    decide +kernel
  obtain ⟨m,hm,hrun⟩ := exists_of_any hrun
  rw [Bool.and_eq_true,Bool.and_eq_true,List.any_eq_true] at hrun
  obtain ⟨⟨⟨d,hd,hpublic⟩,hprivate⟩,hcodes⟩ := hrun
  exact ⟨m,d,hm,Module.mem_subjects_of_child hd,toOption_eq_some (beq_iff_eq.1 hpublic),by simpa using hprivate,
    beq_iff_eq.1 hcodes⟩

end DocLint
