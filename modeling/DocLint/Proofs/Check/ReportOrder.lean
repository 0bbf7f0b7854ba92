import DocLint.Proofs.Answer
import DocLint.Proofs.Check.SwitchedOff
import DocLint.Proofs.Outline.LineOrder
import DocLint.Resources.Builtin

/-!
The order of a report. Violations come subject by subject, and the lines of the subjects never
decrease, so a report is sorted as soon as it is made.
-/

set_option autoImplicit false

namespace DocLint

open Outline

namespace CheckOptions

variable {o : CheckOptions} {R : Subject → Subject → Prop}

theorem applyAll_pairwise [Resources] {ss : List Subject} (hrefl : ∀ s ∈ ss, R s s) (h : ss.Pairwise R) :
    (o.applyAll ss).violations.Pairwise (fun a b => R a.subject b.subject) ∧
      ∀ v ∈ (o.applyAll ss).violations, v.subject ∈ ss := by
  induction ss with
  | nil => exact ⟨List.Pairwise.nil,by simp [applyAll]⟩
  | cons s ss ih =>
    obtain ⟨hs,hss⟩ := List.pairwise_cons.mp h
    obtain ⟨hsorted,hmem⟩ := ih (fun x hx => hrefl x (List.mem_cons_of_mem s hx)) hss
    have hown : (o.apply s Check.all).violations.Pairwise fun a b => R a.subject b.subject := by
      refine List.pairwise_of_forall_mem_list fun a ha b hb => ?_
      rw [subject_of_mem ha,subject_of_mem hb]
      exact hrefl s List.mem_cons_self
    rw [applyAll]
    by_cases hf : (o.apply s Check.all).fault = none
    · rw [Verdict.append_of_none hf]
      refine ⟨List.pairwise_append.mpr ⟨hown,hsorted,fun a ha b hb => ?_⟩,fun v hv => ?_⟩
      · rw [subject_of_mem ha]
        exact hs _ (hmem b hb)
      · rcases List.mem_append.mp hv with hv | hv
        · rw [subject_of_mem hv]
          exact List.mem_cons_self
        · exact List.mem_cons_of_mem s (hmem v hv)
    · rw [Verdict.append_of_fault hf]
      refine ⟨hown,fun v hv => ?_⟩
      rw [subject_of_mem hv]
      exact List.mem_cons_self

end CheckOptions

theorem Violation.not_comesBefore {a b : Violation} (hfile : a.file = b.file) (hline : a.line ≤ b.line) :
    b.comesBefore a = false := by
  have hlt : ¬b.line < a.line := Nat.not_lt.mpr hline
  simp [comesBefore,Text.before,hfile,hlt]

theorem Module.check_sorted [Resources] {o : CheckOptions} {m : Module}
    (h : (m.subjects.map Subject.line).Pairwise (· ≤ ·)) :
    (m.check o).violations.Pairwise fun a b => b.comesBefore a = false := by
  obtain ⟨hsorted,hmem⟩ := CheckOptions.applyAll_pairwise (o := o) (R := fun a b => a.line ≤ b.line)
    (fun s _ => Nat.le_refl s.line) (List.pairwise_map.mp h)
  refine hsorted.imp_of_mem fun {a b} ha hb hline => Violation.not_comesBefore ?_ hline
  rw [Violation.file,Violation.file,Module.root_of_mem (hmem a ha),Module.root_of_mem (hmem b hb)]

/-- Where tokens come in the order of their lines, the lines of the subjects of a module do not decrease
either. So every report is sorted, and sorting it changes nothing. -/
theorem report_sorted [Resources] :
    (∀ (ts : List Token) (name : Text) (source : List Text) (s s' : State) (m : Module),
      RowsAscend ts → State.ofTokens? ts = some s → Outline.module name source s = .ok m s' →
        (m.subjects.map Subject.line).Pairwise (· ≤ ·)) ∧
    ∀ (o : CheckOptions) (file source : Text) (verdict : Verdict),
      checkSource o file source = .ok verdict →
        verdict.violations.Pairwise (fun a b => b.comesBefore a = false) ∧
          verdict.violations.mergeSort (fun a b => !b.comesBefore a) = verdict.violations := by
  have hlines {ts : List Token} {name : Text} {source : List Text} {s s' : State} {m : Module}
      (hrows : RowsAscend ts) (hs : At ts 0 s) (hrun : Outline.module name source s = .ok m s') :
      (m.subjects.map Subject.line).Pairwise (· ≤ ·) := by
    obtain ⟨_,-,-,-,j,l,hparts⟩ := (module_moves name source).ok hs hrun
    exact hparts.lines hrows
  refine ⟨fun ts name source s s' m hrows hs => hlines hrows (State.ofTokens?_at hs),?_⟩
  intro o file source verdict hv
  obtain ⟨m,hm,rfl⟩ := checkSource_eq_ok.mp hv
  obtain ⟨ts,s,s',hrows,hs,hrun⟩ := Module.exists_of_ofText hm
  have hsorted := Module.check_sorted (o := o) (hlines hrows hs hrun)
  exact ⟨hsorted,List.mergeSort_of_pairwise (by simpa using hsorted)⟩

def layered : Text := "class A:\n  def f(self):\n    ''\n  def g(self): pass\ndef h():\n  ''"

open Resources.Builtin

theorem report_sorted_layered : ∃ s s' m verdict, RowsAscend (Scan.ofText layered).tokens ∧
    State.ofTokens? (Scan.ofText layered).tokens = some s ∧
    Outline.module "a.py" layered.lines s = .ok m s' ∧ checkSource {} "a.py" layered = .ok verdict ∧
    m.subjects.length = 5 ∧ verdict.violations.length = 5 ∧
    (m.subjects.map Subject.line).Pairwise (· ≤ ·) ∧
    verdict.violations.mergeSort (fun a b => !b.comesBefore a) = verdict.violations := by
  have hread : readsTo (Scan.ofText layered).tokens (Outline.module "a.py" layered.lines) (fun m _ =>
      m.subjects.length == 5) = true := by
    decide +kernel
  have hcheck : ((checkSource {} "a.py" layered).toOption.any fun v => v.violations.length == 5) = true := by
    decide +kernel
  have hrows : RowsAscend (Scan.ofText layered).tokens := Scan.ofText_rows layered
  obtain ⟨s,m,s',hs,hrun,hsubjects⟩ := exists_of_readsTo hread
  obtain ⟨verdict,hv,hcheck⟩ := exists_of_any hcheck
  simp only [beq_iff_eq] at hcheck
  exact ⟨s,s',m,verdict,hrows,hs,hrun,hv,beq_iff_eq.mp hsubjects,hcheck,
    report_sorted.1 _ _ _ s s' m hrows hs hrun,(report_sorted.2 _ _ _ verdict hv).2⟩

end DocLint
