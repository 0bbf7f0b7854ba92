import DocLint.Proofs.Answer
import DocLint.Proofs.Check.Sections
import DocLint.Proofs.Publicity
import DocLint.Resources.Builtin
import DocLint.Violation

/-!
Which runs of the checks come to an end. A docstring is taken from the tokens of a text, and the
text is accepted by its grammar. The two may disagree about where literals are, so a docstring need
not be a literal when it is read by itself; nothing else makes a check break off.
-/

set_option autoImplicit false

namespace DocLint

def LiteralValue.isText : LiteralValue → Bool
  | .text _ => true
  | .bytes _ => false

def Exports.areTexts : Exports → Bool
  | .items names => names.all LiteralValue.isText
  | .single value => value.isText

def Subject.isOrdinary [Resources] (s : Subject) : Bool := s.docstring.all Docstring.isPlain && s.hasSignature

/-- A module whose docstrings are plain, which exports nothing but texts, and in which the parameters
of functions can be told. -/
def Module.isOrdinary [Resources] (m : Module) : Bool :=
  m.exports.all Exports.areTexts && m.subjects.all Subject.isOrdinary

/-- What breaks the checks of a subject off. Without a docstring it is asked whether the subject is public. -/
def CheckOptions.obstacle [Resources] (o : CheckOptions) (s : Subject) : Option CheckFault :=
  if o.skips s then none
  else
    match s.docstring with
    | some d => if d.isReadable then none else some .malformedDocstring
    | none => if s.canBeAsked then none else some (.publicity .name)

theorem Module.canBeAsked_of_areTexts {m : Module} (h : m.exports.all Exports.areTexts = true) :
    m.CanBeAsked := by
  intro b he
  rw [he] at h
  cases h

section Root

variable {m : Module}

mutual

theorem Definition.root_of_mem {s : Subject} : (d : Definition) → (ancestors : List Definition) →
    s ∈ d.subjects m ancestors → s.root = m
  | ⟨kind, name, start, stop, decorators, docstring, skipped, children⟩, ancestors, h => by
    rw [Definition.subjects,List.mem_cons] at h
    cases h with
    | inl heq => rw [heq]; rfl
    | inr hmem => exact root_of_mem_children children _ hmem

theorem root_of_mem_children {s : Subject} : (ds : List Definition) → (ancestors : List Definition) →
    s ∈ childSubjects m ancestors ds → s.root = m
  | [], _, h => by simp [childSubjects] at h
  | d :: ds, ancestors, h => by
    rw [childSubjects,List.mem_append] at h
    cases h with
    | inl hmem => exact Definition.root_of_mem d ancestors hmem
    | inr hmem => exact root_of_mem_children ds ancestors hmem

end

theorem Module.root_of_mem {s : Subject} (h : s ∈ m.subjects) : s.root = m := by
  rw [Module.subjects,List.mem_cons] at h
  cases h with
  | inl heq => rw [heq]; rfl
  | inr hmem => exact root_of_mem_children _ _ hmem

end Root

namespace Check

open Outcome

variable {o : CheckOptions} {s : Subject} {d : Docstring} {t : Text}

theorem missing_complete [Resources] (hb : ∃ b, s.isPublic o.searchPath = .ok b) :
    (missing.run o s).IsComplete := by
  refine isComplete_ofExcept ?_
  obtain ⟨b,hb⟩ := hb
  rw [Wording.missing,hb]
  split <;> exact ⟨_,rfl⟩

theorem run_of_documented [Resources] {c : Check} (hd : s.docstring = some d) (hc : c ≠ .missing) :
    c.run o s = c.inspect o s d := by
  unfold run
  rw [hd]
  split
  case h_1 => exact absurd rfl hc
  case h_2 h => cases h
  case h_3 h => cases h; rfl

theorem ofDefinition_complete {f : Definition → Except CheckFault (List Finding)}
    (h : ∀ x, ∃ findings, f x = .ok findings) : (ofDefinition s f).IsComplete := by
  unfold ofDefinition
  split
  · exact isComplete_ofExcept (h _)
  · exact isComplete_empty

theorem inspect_complete [Resources] (hp : d.isPlain = true) (hs : s.hasSignature = true)
    (hv : d.value = .ok (.text t)) (hb : t.isBlank = false) (c : Check) :
    (c.inspect o s d).IsComplete := by
  have hc := Docstring.content_of_value hv
  cases c with
  | missing => exact isComplete_empty
  | empty =>
    refine isComplete_ofExcept ?_
    rw [Wording.empty,hv]
    exact ⟨_,rfl⟩
  | oneLine => exact isComplete_ofExcept (Docstring.judged_ok hc _)
  | functionBlanks => exact isComplete_ofList _
  | classBlanks => exact isComplete_ofList _
  | blankAfterSummary => exact isComplete_ofExcept (Docstring.judged_ok hc _)
  | indentation => exact Layout.indentation_complete s d
  | closingQuotes => exact isComplete_ofExcept (Docstring.judged_ok hc _)
  | surroundingBlanks => exact isComplete_ofExcept (Docstring.judged_ok hc _)
  | summaryStart => exact isComplete_ofExcept (Docstring.judged_ok hc _)
  | quotes => exact isComplete_ofExcept (Wording.quotes_ok hp hc)
  | backslashes => exact isComplete_ofList _
  | period => exact isComplete_ofExcept (Wording.summaryEnd_ok _ _ hc hb)
  | punctuation => exact isComplete_ofExcept (Wording.summaryEnd_ok _ _ hc hb)
  | imperativeMood => exact ofDefinition_complete fun f => Wording.imperativeMood_ok o.properties f hv hb
  | signature => exact ofDefinition_complete fun _ => Docstring.judged_ok hc _
  | capitalized => exact isComplete_ofExcept (Wording.capitalized_ok hv hb)
  | overload => exact ofDefinition_complete fun _ => ⟨_,rfl⟩
  | startsWithThis => exact isComplete_ofExcept (Wording.judgedWord_ok _ hv hb)
  | sections => exact Sections.all_complete hs d

end Check

namespace CheckOptions

variable {o : CheckOptions} {s : Subject} {d : Docstring} {t : Text} {c : Check} {cs : List Check}

/-- Checks that come to an end one by one do so one after the other. -/
theorem apply_complete [Resources] (h : ∀ c ∈ cs, o.skips s = false → (c.run o s).IsComplete) :
    (o.apply s cs).fault = none := by
  induction cs with
  | nil => rfl
  | cons c cs ih =>
    have hrest := ih fun c' hc' => h c' (by simp [hc'])
    unfold apply
    split
    case isTrue => exact hrest
    case isFalse hlooked =>
      have hskips : o.skips s = false := by
        cases hs : o.skips s with
        | false => rfl
        | true => simp [hs] at hlooked
      have hc : (c.run o s).fault = none := h c (by simp) hskips
      simp only [hc]
      split
      · rfl
      · exact hrest

theorem apply_of_nothing [Resources] (h : c.run o s = {}) : o.apply s (c :: cs) = o.apply s cs := by
  rw [apply,h]
  simp

/-- What is found in a blank docstring is kept, and then no check follows. -/
theorem apply_empty [Resources] (ho : o.ignoreComments = true) (hd : s.docstring = some d)
    (hv : d.value = .ok (.text t)) (hb : t.isBlank = true) (hs : o.skips s = false) :
    (o.apply s (.empty :: cs)).fault = none := by
  have hrun : Check.empty.run o s = .ofList [Rule.D419.plain] := by
    rw [Check.run_of_documented hd (by decide)]
    simp [Check.inspect,Check.Wording.empty,hv,ok_bind,hb,Outcome.ofExcept,Outcome.ofList,pure,Except.pure]
  rw [apply,hrun]
  simp [hs,Check.appliesTo,Check.isTerminal,Outcome.ofList,keeps,ho]

theorem apply_fault [Resources] (ho : o.ignoreComments = true) (h : s.isOrdinary = true)
    (hpublic : s.canBeAsked = true → ∃ b, s.isPublic o.searchPath = .ok b) :
    (o.apply s Check.all).fault = o.obstacle s := by
  rw [Subject.isOrdinary,Bool.and_eq_true] at h
  obtain ⟨hplain,hsignature⟩ := h
  cases hs : o.skips s with
  | true =>
    rw [apply_complete fun _ _ hs' => by simp [hs] at hs']
    simp [obstacle,hs]
  | false =>
    cases hd : s.docstring with
    | none =>
      cases hask : s.canBeAsked with
      | true =>
        rw [obstacle]
        simp only [hs,hd,hask]
        refine apply_complete fun c hc _ => ?_
        cases c with
        | missing => exact Check.missing_complete (hpublic hask)
        | _ => simp [Check.run,hd,Outcome.isComplete_empty]
      | false =>
        have hrun : Check.missing.run o s = .ofFault (.publicity .name) := by
          simp only [Check.run,Check.Wording.missing,Check.Wording.hasDocstring,hd,
            Subject.isPublic_of_not_canBeAsked _ hask]
          rfl
        rw [obstacle,Check.all,apply,hrun]
        simp [hs,hd,hask,Check.appliesTo,Outcome.ofFault]
    | some d =>
      have hp : d.isPlain = true := by simpa [hd] using hplain
      have hmissing : Check.missing.run o s = {} := by
        simp [Check.run,Check.Wording.missing,Check.Wording.hasDocstring,hd,Outcome.ofExcept]
      rw [Check.all,apply_of_nothing hmissing]
      obtain ⟨t,hv⟩ | hv := Docstring.value_of_isPlain hp
      · have hread : o.obstacle s = none := by
          simp [obstacle,hd,Docstring.isReadable,hv,Except.isOk,Except.toBool]
        rw [hread]
        cases hb : t.isBlank with
        | true => exact apply_empty ho hd hv hb hs
        | false =>
          refine apply_complete fun c hc _ => ?_
          rw [Check.run_of_documented hd (by rintro rfl; simp at hc)]
          exact Check.inspect_complete hp hsignature hv hb c
      · have hread : o.obstacle s = some .malformedDocstring := by
          simp [obstacle,hs,hd,Docstring.isReadable,hv,Except.isOk,Except.toBool]
        have hrun : Check.empty.run o s = .ofFault .malformedDocstring := by
          rw [Check.run_of_documented hd (by decide)]
          simp only [Check.inspect,Check.Wording.empty,hv]
          rfl
        rw [hread,apply,hrun]
        simp [hs,Check.appliesTo,Outcome.ofFault]

theorem applyAll_fault [Resources] {ss : List Subject} (ho : o.ignoreComments = true)
    (h : ∀ s ∈ ss, s.isOrdinary = true)
    (hpublic : ∀ s ∈ ss, s.canBeAsked = true → ∃ b, s.isPublic o.searchPath = .ok b) :
    (o.applyAll ss).fault = ss.findSome? o.obstacle := by
  induction ss with
  | nil => rfl
  | cons s ss ih =>
    have hfirst := apply_fault ho (h s (by simp)) (hpublic s (by simp))
    have hrest := ih (fun s' hs' => h s' (by simp [hs'])) fun s' hs' => hpublic s' (by simp [hs'])
    change (Verdict.append (o.apply s Check.all) (o.applyAll ss)).fault = _
    unfold Verdict.append
    rw [hfirst,List.findSome?_cons]
    cases hs : o.obstacle s with
    | none => simpa using hrest
    | some e => simp [hfirst,hs]

end CheckOptions

/-- Checking an ordinary source text breaks off at the first docstring that is looked at and is no
literal when it is read by itself, or at the first method without a docstring that has decorators and a
name that is no pattern. Nothing else makes it break off. -/
theorem checkSource_fault [Resources] {o : CheckOptions} {file source : Text} {m : Module}
    (ho : o.ignoreComments = true) (hm : Module.ofText file source = .ok m)
    (h : m.isOrdinary = true) :
    ∃ verdict, checkSource o file source = .ok verdict ∧ verdict.fault = m.subjects.findSome? o.obstacle := by
  rw [Module.isOrdinary,Bool.and_eq_true,List.all_eq_true] at h
  refine ⟨m.check o,by rw [checkSource,hm]; rfl,?_⟩
  refine CheckOptions.applyAll_fault ho h.2 fun s hs hask => ?_
  cases s with
  | module m' => exact ⟨_,rfl⟩
  | definition m' ancestors d =>
    obtain rfl : m' = m := Module.root_of_mem hs
    exact (Module.stands_of_mem hs).isPublic_ok (Module.placed_of_ofText hm)
      (Module.canBeAsked_of_areTexts h.1) hask

theorem Module.exists_subject [Resources] {file source : Text} {p : Subject → Bool}
    (h : ((Module.ofText file source).toOption.any fun m => m.subjects.any p) = true) :
    ∃ m s, Module.ofText file source = .ok m ∧ s ∈ m.subjects ∧ p s = true := by
  obtain ⟨m,hm,hany⟩ := exists_of_any h
  obtain ⟨s,hs,hp⟩ := List.any_eq_true.mp hany
  exact ⟨m,s,hm,hs,hp⟩

/-- A text with exported names, a decorated function, a section and a blank docstring. -/
def manual : Text := Text.join "\n" (Text.literals
  ["__all__ = 'f',", "@g", "def f(x, y):", "  r'''Do.", "", "  Args:", "     x: A.", "  '''", "class A:",
    "  ''"])

open Resources.Builtin

theorem checkSource_fault_manual : ∃ m verdict, Module.ofText "a.py" manual = .ok m ∧
    m.isOrdinary = true ∧ checkSource { ignoreComments := true } "a.py" manual = .ok verdict ∧
      verdict.fault = none := by
  have hrun : ((Module.ofText "a.py" manual).toOption.any fun m => m.isOrdinary &&
      m.subjects.findSome? (CheckOptions.obstacle { ignoreComments := true }) == none) = true := by
    decide +kernel
  obtain ⟨m,hm,hrun⟩ := exists_of_any hrun
  rw [Bool.and_eq_true,beq_iff_eq] at hrun
  obtain ⟨verdict,hverdict,hfault⟩ := checkSource_fault (o := { ignoreComments := true }) rfl hm hrun.1
  exact ⟨m,verdict,hm,hrun.1,hverdict,hfault.trans hrun.2⟩

/-- To the grammar, a carriage return ends the first comment and opens a raw literal. To the tokens
the first line is one comment, and the second line is the docstring. -/
def hiddenLiteral : Text := "#\rr'''\n'\\x'\n#'''"

/-- Nothing but the docstring of this text is out of the ordinary, and checking it breaks off. -/
theorem hiddenLiteral_breaks_off : ∃ m verdict, Module.ofText "a.py" hiddenLiteral = .ok m ∧
    m.isOrdinary = true ∧ checkSource { ignoreComments := true } "a.py" hiddenLiteral = .ok verdict ∧
      verdict.fault = some .malformedDocstring := by
  have hrun : ((Module.ofText "a.py" hiddenLiteral).toOption.any fun m => m.isOrdinary &&
      (m.check { ignoreComments := true }).fault == some .malformedDocstring) = true := by
    decide +kernel
  obtain ⟨m,hm,hrun⟩ := exists_of_any hrun
  rw [Bool.and_eq_true,beq_iff_eq] at hrun
  exact ⟨m,_,hm,hrun.1,by rw [checkSource,hm]; rfl,hrun.2⟩

end DocLint
