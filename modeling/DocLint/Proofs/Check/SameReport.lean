import DocLint.Proofs.Check.PerSubject
import DocLint.Proofs.Check.Respelt
import DocLint.Proofs.Outline.Counterparts

/-!
Subjects of which the same is reported: what is told of them apart from docstrings and source lines is the
same, and so are their docstrings but for the case of a mark. Only the rule about backslashes knows the
capital letter from the small one.
-/

set_option autoImplicit false

namespace DocLint

namespace Subject

variable {s s' : Subject}

theorem isPublic_bare [Resources] (m : Module) (ancestors : List Definition) (d : Definition) :
    d.bare.isPublic m.bare (ancestors.map Definition.bare) = d.isPublic m ancestors := by
  induction ancestors generalizing d with
  | nil => rw [List.map_nil,Definition.isPublic,Definition.isPublic]; rfl
  | cons p ps ih =>
    rw [List.map_cons,Definition.isPublic,Definition.isPublic]
    simp only [ih]
    rfl

theorem shown_bare [Resources] (s : Subject) : s.bare.shown = s.shown := by
  cases s with
  | module m => rfl
  | definition m ancestors d =>
    rw [bare,shown,shown,isPublic_bare]
    rfl

theorem shown_eq [Resources] (h : s'.bare = s.bare) : s'.shown = s.shown := by
  rw [← shown_bare,h,shown_bare]

end Subject

variable {o : CheckOptions} {s s' : Subject} {d d' : Docstring}

theorem Subject.bare_congr {α : Type} {f : Subject → α} (hf : ∀ s, f s.bare = f s) (h : s'.bare = s.bare) :
    f s' = f s := by
  rw [← hf s',h,hf]

theorem Check.appliesTo_eq (h : s'.bare = s.bare) (c : Check) : c.appliesTo s' = c.appliesTo s := by
  refine Subject.bare_congr (fun s => ?_) h
  cases s <;> cases c <;> rfl

theorem CheckOptions.skips_eq (h : s'.bare = s.bare) : o.skips s' = o.skips s := by
  refine Subject.bare_congr (fun s => ?_) h
  cases s <;> rfl

theorem CheckOptions.keeps_eq (h : s'.bare = s.bare) (f : Finding) : o.keeps s' f = o.keeps s f := by
  refine Subject.bare_congr (f := fun s => o.keeps s f) (fun s => ?_) h
  cases s <;> rfl

namespace Check

theorem ofDefinition_eq {f : Definition → Except CheckFault (List Finding)} (hf : ∀ x, f x.bare = f x)
    (h : s'.bare = s.bare) : ofDefinition s' f = ofDefinition s f := by
  refine Subject.bare_congr (f := fun s => ofDefinition s f) (fun s => ?_) h
  cases s with
  | module m => rfl
  | definition m ancestors x => exact congrArg Outcome.ofExcept (hf x)

theorem missing_eq [Resources] (h : s'.bare = s.bare) (hdoc : s'.docstring.isSome = s.docstring.isSome)
    (searchPath : List Path) : Wording.missing searchPath s' = Wording.missing searchPath s := by
  have hpublic : s'.isPublic searchPath = s.isPublic searchPath := by
    refine Subject.bare_congr (f := fun s => s.isPublic searchPath) (fun s => ?_) h
    cases s with
    | module m => rfl
    | definition m ancestors x => exact Subject.isPublic_bare m ancestors x
  have hrule : Wording.missingRule s' = Wording.missingRule s := by
    refine Subject.bare_congr (fun s => ?_) h
    cases s <;> rfl
  unfold Wording.missing Wording.hasDocstring
  rw [hdoc,hpublic,hrule]

theorem run_cases [Resources] (c : Check) (s : Subject) : c.run o s =
    if c = .missing then .ofExcept (Wording.missing o.searchPath s) else s.docstring.elim {} (c.inspect o s) := by
  unfold run
  cases c <;> cases s.docstring <;> rfl

def SameWords (d d' : Docstring) : Prop := d' = d ∨ d.Respelt d'

theorem inspect_eq [Resources] (h : s'.bare = s.bare) (hwords : SameWords d d') (hcontext : SameContext s s' d d') {c : Check}
    (hc : c ≠ .backslashes) : c.inspect o s' d' = c.inspect o s d := by
  have hvalue : d'.value = d.value := hwords.elim (fun e => e ▸ rfl) Docstring.Respelt.value_eq
  have hcontent : d'.content = d.content := by rw [Docstring.content,hvalue]; rfl
  have hjudged (f : Text → List Finding) : d'.judged f = d.judged f := by rw [Docstring.judged,hcontent]; rfl
  have hword (f : Text → List Finding) : Wording.judgedWord f d' = Wording.judgedWord f d := by
    rw [Wording.judgedWord,Wording.firstWord?,hvalue]
    rfl
  cases c with
  | missing => rfl
  | empty => rw [inspect,inspect,Wording.empty,hvalue]; rfl
  | oneLine => exact congrArg Outcome.ofExcept (hjudged _)
  | functionBlanks =>
    simp only [inspect,Layout.functionBlanks,hcontext.blanksBefore,hcontext.blanksAfter,hcontext.endsBlank,
      hcontext.opens]
  | classBlanks =>
    simp only [inspect,Layout.classBlanks,hcontext.blanksBefore,hcontext.blanksAfter,hcontext.endsBlank]
  | blankAfterSummary => exact congrArg Outcome.ofExcept (hjudged _)
  | indentation =>
    rcases hwords with rfl | hrespelt
    · simp only [inspect,Layout.indentation,hcontext.indent]
    · exact indentation_eq hrespelt hcontext.indent
  | closingQuotes => exact congrArg Outcome.ofExcept (hwords.elim (fun e => e ▸ rfl) closingQuotes_eq)
  | surroundingBlanks => exact congrArg Outcome.ofExcept (hjudged _)
  | summaryStart => exact congrArg Outcome.ofExcept (hwords.elim (fun e => e ▸ rfl) summaryStart_eq)
  | quotes => exact congrArg Outcome.ofExcept (hwords.elim (fun e => e ▸ rfl) Docstring.Respelt.quotes_eq)
  | backslashes => exact absurd rfl hc
  | period => rw [inspect,inspect,Wording.summaryEnd,hcontent]; rfl
  | punctuation => rw [inspect,inspect,Wording.summaryEnd,hcontent]; rfl
  | imperativeMood =>
    simp only [inspect,Wording.imperativeMood,hword]
    exact ofDefinition_eq (fun x => rfl) h
  | signature =>
    simp only [inspect,Wording.signature,hjudged]
    exact ofDefinition_eq (fun x => rfl) h
  | capitalized => rw [inspect,inspect,Wording.capitalized,hvalue]; rfl
  | overload => exact ofDefinition_eq (fun x => rfl) h
  | startsWithThis => exact congrArg Outcome.ofExcept (hword _)
  | sections =>
    rcases hwords with rfl | hrespelt
    · have hsame (x : Section) : x.Alike x := ⟨rfl,rfl⟩
      have hnumpy (indent : Text) : Sections.numpySection s' indent = Sections.numpySection s indent :=
        funext fun x => Sections.numpySection_alike hcontext.parameters (hsame x)
      have hgoogle (indent : Text) : Sections.googleSection s' indent = Sections.googleSection s indent :=
        funext fun x => Sections.googleSection_alike hcontext.parameters (hsame x)
      simp only [inspect,Sections.all_eq,hcontext.indent,hnumpy,hgoogle]
    · exact sections_eq hrespelt hcontext.indent hcontext.parameters

end Check

structure Subject.Corresponds [Resources] (s s' : Subject) : Prop where
  bare : s'.bare = s.bare
  undocumented : s.docstring = none → s'.docstring = none
  documented : ∀ d, s.docstring = some d →
    ∃ d', s'.docstring = some d' ∧ Check.SameWords d d' ∧ Check.SameContext s s' d d'

namespace Subject.Corresponds

theorem line_eq [Resources] (h : s.Corresponds s') : s'.line = s.line := by
  have hstart : s'.start = s.start := Subject.bare_congr (fun s => by cases s <;> rfl) h.bare
  unfold Subject.line
  cases hd : s.docstring with
  | none => rw [h.undocumented hd,hstart]
  | some d =>
    obtain ⟨d',hd',hwords,-⟩ := h.documented d hd
    rw [hd']
    rcases hwords with rfl | hrespelt
    · rfl
    · cases hrespelt
      rfl

theorem run_eq [Resources] (h : s.Corresponds s') {c : Check} (hc : c ≠ .backslashes) : c.run o s' = c.run o s := by
  have hsome : s'.docstring.isSome = s.docstring.isSome := by
    cases hd : s.docstring with
    | none => rw [h.undocumented hd]
    | some d =>
      obtain ⟨d',hd',-⟩ := h.documented d hd
      rw [hd']
      rfl
  rw [Check.run_cases,Check.run_cases]
  split
  · rw [Check.missing_eq h.bare hsome]
  · cases hd : s.docstring with
    | none => rw [h.undocumented hd,Option.elim_none,Option.elim_none]
    | some d =>
      obtain ⟨d',hd',hwords,hcontext⟩ := h.documented d hd
      rw [hd']
      exact Check.inspect_eq h.bare hwords hcontext hc

end Subject.Corresponds

/-- What a report says of a violation: the line, the subject, the code and the message. -/
def Violation.told [Resources] (v : Violation) : Nat × Except PublicityFault Text × Text × Text :=
  (v.line, v.subject.shown, v.code, v.message)

def Verdict.told [Resources] (rules : Rule → Bool) (v : Verdict) :
    List (Nat × Except PublicityFault Text × Text × Text) × Option CheckFault :=
  ((v.violations.filter fun x => rules x.finding.rule).map Violation.told, v.fault)

section Told

variable {rules : Rule → Bool}

theorem Verdict.told_append [Resources] {a b a' b' : Verdict} (ha : a'.told rules = a.told rules)
    (hb : b'.told rules = b.told rules) : (a' ++ b').told rules = (a ++ b).told rules := by
  obtain ⟨hviolations,hfault⟩ := Prod.mk.inj ha
  obtain ⟨hviolations',hfault'⟩ := Prod.mk.inj hb
  by_cases hf : a.fault = none
  · rw [append_of_none hf,append_of_none (hfault.trans hf),told,told]
    simp only [List.filter_append,List.map_append,hviolations,hviolations',hfault']
  · rw [append_of_fault hf,append_of_fault (by rwa [hfault]),ha]

theorem Subject.Corresponds.told_map [Resources] (h : s.Corresponds s') (c : Check) (fs : List Finding) :
    ((fs.map fun f => (⟨f, s', c⟩ : Violation)).filter fun x => rules x.finding.rule).map Violation.told =
      ((fs.map fun f => (⟨f, s, c⟩ : Violation)).filter fun x => rules x.finding.rule).map Violation.told := by
  rw [List.filter_map,List.filter_map,List.map_map,List.map_map]
  refine List.map_congr_left fun f _ => ?_
  simp only [Function.comp_apply,Violation.told,Violation.line,h.line_eq,Subject.shown_eq h.bare,Violation.code,
    Violation.message]

/-- What is found by the check on backslashes is about one rule, and it never breaks off. -/
theorem Check.run_backslashes [Resources] (s : Subject) : (Check.backslashes.run o s).fault = none ∧
    ∀ f ∈ (Check.backslashes.run o s).findings, f.rule = .D301 := by
  rw [run_cases,if_neg (by decide)]
  cases s.docstring with
  | none => exact ⟨rfl,by simp⟩
  | some d =>
    refine ⟨rfl,fun f hf => ?_⟩
    change f ∈ Wording.backslashes d at hf
    unfold Wording.backslashes at hf
    dsimp only at hf
    split at hf
    · rw [List.mem_singleton.mp hf]
      rfl
    · cases hf

namespace CheckOptions

theorem found_told [Resources] (h : s.Corresponds s')
    (hrules : Check.backslashes.run o s' = Check.backslashes.run o s ∨ rules .D301 = false) (c : Check) :
    (o.found s' c).told rules = (o.found s c).told rules := by
  have hkeeps : o.keeps s' = o.keeps s := funext (keeps_eq h.bare)
  have hrun (hc : c.run o s' = c.run o s) : (o.found s' c).told rules = (o.found s c).told rules := by
    unfold found
    rw [Check.appliesTo_eq h.bare,skips_eq h.bare,hkeeps]
    split
    · rfl
    · rw [hc,Verdict.told,Verdict.told,h.told_map]
  by_cases hc : c = .backslashes
  · subst hc
    rcases hrules with hsame | hrule
    · exact hrun hsame
    · -- What the check on backslashes finds is not asked for.
      have hnone {t : Subject} {fs : List Finding} (hfs : ∀ f ∈ fs, f.rule = .D301) :
          (fs.map fun f => (⟨f, t, .backslashes⟩ : Violation)).filter (fun x => rules x.finding.rule) = [] := by
        rw [List.filter_map,List.map_eq_nil_iff,List.filter_eq_nil_iff]
        intro f hf
        simp [hfs f hf,hrule]
      obtain ⟨hfault,hfindings⟩ := Check.run_backslashes (o := o) s
      obtain ⟨hfault',hfindings'⟩ := Check.run_backslashes (o := o) s'
      unfold found
      rw [Check.appliesTo_eq h.bare,skips_eq h.bare,hkeeps]
      split
      · rfl
      · rw [Verdict.told,Verdict.told,hnone fun f hf => hfindings f (List.mem_of_mem_filter hf),
          hnone fun f hf => hfindings' f (List.mem_of_mem_filter hf),hfault,hfault']
  · exact hrun (h.run_eq hc)

/-- What is reported of corresponding subjects is the same, if the rule about backslashes is not asked for
where it finds something else. -/
theorem apply_told [Resources] (h : s.Corresponds s')
    (hrules : Check.backslashes.run o s' = Check.backslashes.run o s ∨ rules .D301 = false) (cs : List Check) :
    (o.apply s' cs).told rules = (o.apply s cs).told rules := by
  induction cs with
  | nil => rfl
  | cons c cs ih =>
    have hfound := found_told (o := o) h hrules c
    cases hterminal : c.isTerminal with
    | false => rw [apply_of_kept (.inl hterminal),apply_of_kept (.inl hterminal),Verdict.told_append hfound ih]
    | true =>
      have hc : c ≠ .backslashes := by
        rintro rfl
        cases hterminal
      have hnil : (o.found s' c).violations = [] ↔ (o.found s c).violations = [] := by
        unfold found
        rw [Check.appliesTo_eq h.bare,skips_eq h.bare,h.run_eq hc,
          show o.keeps s' = o.keeps s from funext (keeps_eq h.bare)]
        split
        · rfl
        · simp only [List.map_eq_nil_iff]
      rcases found_terminal (o := o) (s := s) hterminal with hempty | ⟨v,hv⟩
      · rw [apply_of_kept (.inr hempty),apply_of_kept (.inr (hnil.mpr hempty)),Verdict.told_append hfound ih]
      · rcases found_terminal (o := o) (s := s') hterminal with hempty' | ⟨v',hv'⟩
        · rw [hnil,hv] at hempty'
          cases hempty'
        · rw [apply_terminal hterminal hv,apply_terminal hterminal hv',hfound]

theorem applyAll_told [Resources] {ss ss' : List Subject} (h : List.Forall₂ (fun x x' => x.Corresponds x' ∧
      (Check.backslashes.run o x' = Check.backslashes.run o x ∨ rules .D301 = false)) ss ss') :
    (o.applyAll ss').told rules = (o.applyAll ss).told rules := by
  induction h with
  | nil => rfl
  | cons hx _ ih =>
    rw [applyAll,applyAll]
    exact Verdict.told_append (apply_told hx.1 hx.2 Check.all) ih

end CheckOptions

end Told

/-! ### The rule about backslashes -/

section Backslashes

variable {c q : Char} {rest : Text}

theorem Check.run_backslashes_letter [Resources] (hd : s.docstring = some d) (htext : d.text = c :: q :: rest)
    (hq : Lexeme.isQuote q = true) : Check.backslashes.run o s =
      .ofList (if Check.Wording.hasBackslash d.text = true ∧ c ≠ 'r' then [Rule.D301.plain] else []) := by
  have hur : "ur".toList.isPrefixOf d.text = false := by
    rw [htext]
    have hne : q ≠ 'r' := by
      rintro rfl
      exact absurd hq (by decide)
    simp [List.isPrefixOf,Ne.symm hne]
  have hr : "r".toList.isPrefixOf d.text = (c == 'r') := by
    rw [htext]
    simp [List.isPrefixOf,Bool.beq_comm]
  rw [run_cases,if_neg (by decide),hd]
  change Outcome.ofList (Check.Wording.backslashes d) = _
  unfold Check.Wording.backslashes
  dsimp only
  rw [hur,hr]
  by_cases hletter : c = 'r' <;> simp [hletter]

def Docstring.RawBackslash (d : Docstring) : Prop :=
  Check.Wording.hasBackslash d.text = true ∧ (d.text.head? = some 'r' ∨ d.text.head? = some 'R')

theorem Docstring.Respelt.ne (h : d.Respelt d') : some d' ≠ some d := by
  obtain @⟨c,q,rest,_,_,hc,-⟩ := h
  have hall := of_mem_plainLetters (p := fun c => otherCase c != c) (by decide) hc
  simpa using hall

theorem Docstring.Respelt.hasBackslash_eq (h : d.Respelt d') :
    Check.Wording.hasBackslash d'.text = Check.Wording.hasBackslash d.text := by
  obtain @⟨c,q,rest,_,_,hc,-⟩ := h
  have hplain {c : Char} (hc : c ∈ plainLetters) :
      Check.Wording.hasBackslash (c :: q :: rest) = Check.Wording.hasBackslash (q :: rest) := by
    have hne := of_mem_plainLetters (p := (· != '\\')) (by decide) hc
    simp [Check.Wording.hasBackslash,show c ≠ '\\' by simpa using hne]
  exact (hplain (otherCase_mem hc)).trans (hplain hc).symm

theorem Subject.Corresponds.backslashes_eq [Resources] (h : s.Corresponds s')
    (hraw : ∀ d, s.docstring = some d → s'.docstring ≠ some d → ¬ d.RawBackslash) :
    Check.backslashes.run o s' = Check.backslashes.run o s := by
  cases hd : s.docstring with
  | none =>
    rw [Check.run_cases,Check.run_cases,if_neg (by decide),if_neg (by decide),hd,h.undocumented hd]
    rfl
  | some d =>
    obtain ⟨d',hd',rfl | hrespelt,-⟩ := h.documented d hd
    · rw [Check.run_cases,Check.run_cases,if_neg (by decide),if_neg (by decide),hd,hd']
      rfl
    · have hsame := hrespelt.hasBackslash_eq
      have hraw := hraw d hd (hd' ▸ hrespelt.ne)
      obtain @⟨c,q,rest,_,_,hc,hq⟩ := hrespelt
      rw [Check.run_backslashes_letter hd rfl hq,Check.run_backslashes_letter hd' rfl hq,hsame]
      simp only [plainLetters,List.mem_cons,List.not_mem_nil,or_false] at hc
      unfold Docstring.RawBackslash at hraw
      obtain rfl | rfl | rfl | rfl := hc <;> simp_all [otherCase]

end Backslashes

end DocLint
