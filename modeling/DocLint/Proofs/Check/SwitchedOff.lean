import DocLint.Proofs.Answer
import DocLint.Proofs.Check.Completion
import DocLint.Resources.Builtin

/-!
Comments that switch codes off. With one exception they do nothing but take violations away: a blank
docstring is the last thing to be found about its subject, and where just this is switched off, checks
are made that cannot deal with a blank docstring.
-/

set_option autoImplicit false

namespace DocLint

def Subject.isSilenced (s : Subject) : Bool := s.skipped == "all".toList

def Subject.switchesOff (s : Subject) (code : Text) : Bool :=
  s.isSilenced || Text.containsText code s.skipped

def Violation.isSwitchedOff (v : Violation) : Bool := v.subject.switchesOff v.code

def Verdict.heed (v : Verdict) : Verdict :=
  { v with violations := v.violations.filter fun x => !x.isSwitchedOff }

def CheckOptions.heeding (o : CheckOptions) : CheckOptions := { o with ignoreComments := false }

def CheckOptions.ignoring (o : CheckOptions) : CheckOptions := { o with ignoreComments := true }

def Docstring.isBlank [Resources] (d : Docstring) : Bool :=
  match d.value with
  | .ok (.text t) => Text.isBlank t
  | .ok (.bytes b) => b.all Check.Wording.isBlankByte
  | .error _ => false

def Docstring.blankFault [Resources] (d : Docstring) : CheckFault :=
  match d.value with
  | .ok (.bytes _) => .byteDocstring
  | _ => .noWord

theorem Check.Wording.empty_eq [Resources] (d : Docstring) :
    Check.Wording.empty d = d.value.map fun _ => if d.isBlank then [Rule.D419.plain] else [] := by
  unfold Check.Wording.empty Docstring.isBlank
  cases d.value with
  | error e => rfl
  | ok v => cases v <;> rfl

def Check.beforeWords : List Check :=
  [.oneLine, .functionBlanks, .classBlanks, .blankAfterSummary, .indentation, .closingQuotes,
    .surroundingBlanks, .summaryStart, .quotes, .backslashes]

/-- Whether a blank docstring is looked at since only the finding that it is blank is switched off. -/
def CheckOptions.isExposed [Resources] (o : CheckOptions) (s : Subject) : Bool :=
  !o.heeding.skips s && s.docstring.any Docstring.isBlank && s.switchesOff Rule.D419.code

namespace Verdict

variable {a b c : Verdict}

theorem append_of_fault (h : a.fault ≠ none) : a ++ b = a := by
  change append a b = a
  unfold append
  cases hf : a.fault with
  | none => exact absurd hf h
  | some e => rfl

theorem append_of_none (h : a.fault = none) : a ++ b = ⟨a.violations ++ b.violations,b.fault⟩ := by
  change append a b = _
  simp only [append,h]

theorem fault_of_append (h : (a ++ b).fault = none) : a.fault = none := by
  by_cases ha : a.fault = none
  · exact ha
  · rwa [append_of_fault ha] at h

@[simp] theorem empty_append : ({} : Verdict) ++ b = b := append_of_none rfl

@[simp] theorem append_empty : a ++ ({} : Verdict) = a := by
  by_cases h : a.fault = none
  · rw [append_of_none h]
    simp [← h]
  · exact append_of_fault h

theorem append_assoc : a ++ b ++ c = a ++ (b ++ c) := by
  by_cases ha : a.fault = none
  · by_cases hb : b.fault = none
    · have hab : (a ++ b).fault = none := by rw [append_of_none ha,hb]
      rw [append_of_none hab,append_of_none hb,append_of_none ha,append_of_none ha]
      simp
    · have hab : (a ++ b).fault ≠ none := by rwa [append_of_none ha]
      rw [append_of_fault hab,append_of_fault hb]
  · rw [append_of_fault ha,append_of_fault ha,append_of_fault ha]

@[simp] theorem heed_empty : heed {} = {} := rfl

theorem heed_append : (a ++ b).heed = a.heed ++ b.heed := by
  by_cases h : a.fault = none
  · rw [append_of_none h,append_of_none (a := a.heed) h]
    simp [heed]
  · rw [append_of_fault h,append_of_fault (a := a.heed) h]

end Verdict

namespace CheckOptions

open Check (beforeWords)

variable {o : CheckOptions} {s : Subject} {d : Docstring} {t : Text} {c : Check} {cs ds : List Check}

/-! ### One check after the other -/

def found [Resources] (o : CheckOptions) (s : Subject) (c : Check) : Verdict :=
  if !c.appliesTo s || o.skips s then {}
  else
    { violations := ((c.run o s).findings.filter (o.keeps s)).map fun f =>
        { finding := f, subject := s, check := c }
      fault := (c.run o s).fault }

theorem apply_of_kept [Resources] (hc : c.isTerminal = false ∨ (o.found s c).violations = []) :
    o.apply s (c :: cs) = o.found s c ++ o.apply s cs := by
  unfold found at hc ⊢
  rw [apply]
  split
  · simp
  · rename_i hlooked
    have hnot : (c.isTerminal && !((c.run o s).findings.filter (o.keeps s)).isEmpty) = false := by
      rcases hc with hc | hc
      · simp [hc]
      · rw [if_neg hlooked] at hc
        simp only [List.map_eq_nil_iff] at hc
        simp [hc]
    simp only [hnot,Bool.false_eq_true,if_false]
    cases hf : (c.run o s).fault with
    | none => rw [Verdict.append_of_none rfl]
    | some e => rw [Verdict.append_of_fault (by simp)]

theorem apply_append [Resources] (h : ∀ c ∈ cs, c.isTerminal = false) :
    o.apply s (cs ++ ds) = o.apply s cs ++ o.apply s ds := by
  induction cs with
  | nil => simp [apply]
  | cons c cs ih =>
    have hc := h c (List.mem_cons_self ..)
    rw [List.cons_append,apply_of_kept (.inl hc),apply_of_kept (.inl hc),
      ih fun c' hc' => h c' (List.mem_cons_of_mem c hc'),Verdict.append_assoc]

theorem found_skipped [Resources] (h : o.skips s = true) : o.found s c = {} := by
  simp [found,h]

theorem found_of_nothing [Resources] (h : c.run o s = {}) : o.found s c = {} := by
  simp [found,h]

theorem apply_skipped [Resources] (h : o.skips s = true) : o.apply s cs = {} := by
  induction cs with
  | nil => rfl
  | cons c cs ih => simp [apply_of_kept,found_skipped h,ih]

theorem apply_undocumented [Resources] (hd : s.docstring = none) (h : Check.missing ∉ cs) : o.apply s cs = {} := by
  induction cs with
  | nil => rfl
  | cons c cs ih =>
    simp only [List.mem_cons,not_or] at h
    have hrun : c.run o s = {} := by
      cases c with
      | missing => exact absurd rfl h.1
      | _ => simp [Check.run,hd]
    simp [apply_of_nothing hrun,ih h.2]

/-- A terminal check finds at most one thing, and then it does not break off. -/
theorem findings_terminal [Resources] (h : c.isTerminal = true) : (c.run o s).findings = [] ∨
    ∃ f, c.run o s = ⟨[f],none⟩ := by
  have hmissing : (Check.missing.run o s).findings = [] ∨ ∃ f, Check.missing.run o s = ⟨[f],none⟩ := by
    simp only [Check.run,Check.Wording.missing]
    split
    · exact .inl rfl
    · split
      · exact .inl rfl
      · rename_i isPublic _
        cases isPublic <;> cases Check.Wording.missingRule s <;> simp [Outcome.ofExcept]
  have hempty : (Check.empty.run o s).findings = [] ∨ ∃ f, Check.empty.run o s = ⟨[f],none⟩ := by
    cases hd : s.docstring with
    | none => simp [Check.run,hd]
    | some d =>
      rw [Check.run_of_documented hd (by decide)]
      simp only [Check.inspect,Check.Wording.empty_eq]
      cases d.value with
      | error e => exact .inl rfl
      | ok v => cases d.isBlank <;> simp [Except.map,Outcome.ofExcept]
  cases c with
  | missing => exact hmissing
  | empty => exact hempty
  | _ => cases h

theorem found_terminal [Resources] (h : c.isTerminal = true) : (o.found s c).violations = [] ∨
    ∃ v, o.found s c = ⟨[v],none⟩ := by
  unfold found
  split
  · exact .inl rfl
  · rcases findings_terminal (o := o) (s := s) h with hf | ⟨f,hf⟩
    · exact .inl (by simp [hf])
    · by_cases hk : o.keeps s f = true <;> simp [hf,hk]

theorem apply_terminal [Resources] (hc : c.isTerminal = true) {v : Violation} (h : o.found s c = ⟨[v],none⟩) :
    o.apply s (c :: cs) = o.found s c := by
  rw [apply]
  unfold found at h ⊢
  split at h
  · cases h
  · rename_i hlooked
    simp only [Verdict.mk.injEq] at h
    simp only [hlooked,Bool.false_eq_true,if_false,hc,Bool.true_and,h]
    have hne : ((c.run o s).findings.filter (o.keeps s)).isEmpty = false := by
      cases hk : (c.run o s).findings.filter (o.keeps s) with
      | nil => simp [hk] at h
      | cons f fs => rfl
    simp [hne]

theorem subject_of_mem_found [Resources] {v : Violation} (h : v ∈ (o.found s c).violations) : v.subject = s := by
  unfold found at h
  split at h
  · cases h
  · obtain ⟨f,-,rfl⟩ := List.mem_map.1 h
    rfl

theorem exists_found_of_mem [Resources] {v : Violation} (h : v ∈ (o.apply s cs).violations) :
    ∃ c ∈ cs, v ∈ (o.found s c).violations := by
  induction cs with
  | nil => cases h
  | cons c cs ih =>
    have hlater (h : v ∈ (o.apply s cs).violations) :
        ∃ c' ∈ c :: cs, v ∈ (o.found s c').violations := by
      obtain ⟨c',hc',hv⟩ := ih h
      exact ⟨c',List.mem_cons_of_mem c hc',hv⟩
    have happend (h : v ∈ (o.found s c ++ o.apply s cs).violations) :
        ∃ c' ∈ c :: cs, v ∈ (o.found s c').violations := by
      by_cases hf : (o.found s c).fault = none
      · rw [Verdict.append_of_none hf] at h
        rcases List.mem_append.1 h with h | h
        · exact ⟨c,List.mem_cons_self ..,h⟩
        · exact hlater h
      · rw [Verdict.append_of_fault hf] at h
        exact ⟨c,List.mem_cons_self ..,h⟩
    cases hc : c.isTerminal with
    | false =>
      rw [apply_of_kept (.inl hc)] at h
      exact happend h
    | true =>
      rcases found_terminal (o := o) (s := s) hc with hnone | ⟨x,hx⟩
      · rw [apply_of_kept (.inr hnone)] at h
        exact happend h
      · rw [apply_terminal hc hx] at h
        exact ⟨c,List.mem_cons_self ..,h⟩

theorem subject_of_mem [Resources] {v : Violation} (h : v ∈ (o.apply s cs).violations) : v.subject = s := by
  obtain ⟨c,-,hv⟩ := exists_found_of_mem h
  exact subject_of_mem_found hv

theorem exists_apply_of_mem [Resources] {v : Violation} {ss : List Subject} (h : v ∈ (o.applyAll ss).violations) :
    ∃ s ∈ ss, v ∈ (o.apply s Check.all).violations := by
  induction ss with
  | nil => cases h
  | cons s ss ih =>
    rw [applyAll] at h
    by_cases hf : (o.apply s Check.all).fault = none
    · rw [Verdict.append_of_none hf] at h
      rcases List.mem_append.1 h with h | h
      · exact ⟨s,List.mem_cons_self ..,h⟩
      · obtain ⟨s',hs',hv⟩ := ih h
        exact ⟨s',List.mem_cons_of_mem s hs',hv⟩
    · rw [Verdict.append_of_fault hf] at h
      exact ⟨s,List.mem_cons_self ..,h⟩

theorem applyAll_append [Resources] (ss ts : List Subject) :
    o.applyAll (ss ++ ts) = o.applyAll ss ++ o.applyAll ts := by
  induction ss with
  | nil => simp [applyAll]
  | cons s ss ih => rw [List.cons_append,applyAll,applyAll,ih,Verdict.append_assoc]

/-! ### With comments and without -/

theorem skips_heeding : o.heeding.skips s = (s.isSilenced || o.ignoring.skips s) := by
  simp [skips,heeding,ignoring,Subject.isSilenced]

theorem keeps_heeding (h : s.isSilenced = false) (f : Finding) :
    o.heeding.keeps s f = !s.switchesOff f.code := by
  simp [keeps,heeding,Subject.switchesOff,h]

theorem found_heeding [Resources] (h : s.isSilenced = false) :
    o.heeding.found s c = (o.ignoring.found s c).heed := by
  have hskips : o.heeding.skips s = o.ignoring.skips s := by simp [skips_heeding,h]
  have hrun : c.run o.heeding s = c.run o.ignoring s := rfl
  have hkeeps : o.ignoring.keeps s = fun _ => true := by
    funext f
    simp [keeps,ignoring]
  unfold found
  rw [hskips,hrun,hkeeps]
  split
  · rfl
  · have hfilter : (c.run o.ignoring s).findings.filter (o.heeding.keeps s) =
        (c.run o.ignoring s).findings.filter fun f => !s.switchesOff f.code :=
      List.filter_congr fun f _ => keeps_heeding h f
    rw [hfilter]
    simp [Verdict.heed,Violation.isSwitchedOff,Violation.code,Finding.code,List.filter_map,Function.comp_def]

theorem apply_heeding [Resources] (hs : s.isSilenced = false) (h : ∀ c ∈ cs, c.isTerminal = false) :
    o.heeding.apply s cs = (o.ignoring.apply s cs).heed := by
  induction cs with
  | nil => rfl
  | cons c cs ih =>
    have hc := h c (List.mem_cons_self ..)
    rw [apply_of_kept (.inl hc),apply_of_kept (.inl hc),Verdict.heed_append,found_heeding hs,
      ih fun c' hc' => h c' (List.mem_cons_of_mem c hc')]

theorem apply_allOff [Resources] (hs : s.isSilenced = true) (h : (o.ignoring.apply s cs).fault = none) :
    o.heeding.apply s cs = (o.ignoring.apply s cs).heed := by
  have hnone : (o.ignoring.apply s cs).violations.filter (fun x => !x.isSwitchedOff) = [] := by
    refine List.filter_eq_nil_iff.2 fun v hv => ?_
    simp [Violation.isSwitchedOff,subject_of_mem hv,Subject.switchesOff,hs]
  rw [apply_skipped (by simp [skips_heeding,hs]),Verdict.heed,hnone,h]

/-- A terminal check passes to those behind it what it passes to them without comments, as long as
switching its finding off leaves them nothing to find. -/
theorem apply_terminal_heeding [Resources] (hs : s.isSilenced = false) (hc : c.isTerminal = true)
    (hoff : ∀ v, o.ignoring.found s c = ⟨[v],none⟩ → v.isSwitchedOff = true →
      o.heeding.apply s cs = {})
    (hrest : (o.ignoring.apply s cs).fault = none →
      o.heeding.apply s cs = (o.ignoring.apply s cs).heed)
    (h : (o.ignoring.apply s (c :: cs)).fault = none) :
    o.heeding.apply s (c :: cs) = (o.ignoring.apply s (c :: cs)).heed := by
  rcases found_terminal (o := o.ignoring) (s := s) hc with hnone | ⟨v,hv⟩
  · have hnone' : (o.heeding.found s c).violations = [] := by
      rw [found_heeding hs]
      simp [Verdict.heed,hnone]
    rw [apply_of_kept (.inr hnone)] at h ⊢
    rw [apply_of_kept (.inr hnone'),found_heeding hs,Verdict.heed_append]
    have hf := Verdict.fault_of_append h
    rw [Verdict.append_of_none hf] at h
    rw [hrest h]
  · rw [apply_terminal hc hv]
    cases hoffv : v.isSwitchedOff with
    | true =>
      have hnone : (o.heeding.found s c).violations = [] := by
        rw [found_heeding hs,hv]
        simp [Verdict.heed,hoffv]
      rw [apply_of_kept (.inr hnone),hoff v hv hoffv,found_heeding hs,Verdict.append_empty]
    | false =>
      have hkept : o.heeding.found s c = ⟨[v],none⟩ := by
        rw [found_heeding hs,hv]
        simp [Verdict.heed,hoffv]
      rw [apply_terminal hc hkept,found_heeding hs]

theorem run_missing [Resources] (hd : s.docstring = some d) : Check.missing.run o s = {} := by
  simp [Check.run,Check.Wording.missing,Check.Wording.hasDocstring,hd,Outcome.ofExcept]

theorem found_missing [Resources] {v : Violation} (h : o.found s .missing = ⟨[v],none⟩) : s.docstring = none := by
  cases hd : s.docstring with
  | none => rfl
  | some d =>
    rw [found_of_nothing (run_missing hd)] at h
    cases h

theorem found_empty [Resources] {v : Violation} (h : o.found s .empty = ⟨[v],none⟩) :
    o.skips s = false ∧ v.subject = s ∧ v.code = Rule.D419.code ∧
      s.docstring.any Docstring.isBlank = true := by
  have hsubject : v.subject = s := subject_of_mem_found (by rw [h]; simp)
  cases hs : o.skips s with
  | true =>
    rw [found_skipped hs] at h
    cases h
  | false =>
    cases hd : s.docstring with
    | none =>
      rw [found_of_nothing (by simp [Check.run,hd])] at h
      cases h
    | some d =>
      simp only [found,hs,Check.run_of_documented hd (show Check.empty ≠ .missing by decide),Check.inspect,
        Check.Wording.empty_eq,Check.appliesTo] at h
      cases hv : d.value with
      | error e => simp [hv,Except.map,Outcome.ofExcept] at h
      | ok value =>
        cases hb : d.isBlank with
        | false => simp [hv,hb,Except.map,Outcome.ofExcept] at h
        | true =>
          refine ⟨rfl,hsubject,?_,by simpa using hb⟩
          by_cases hk : o.keeps s Rule.D419.plain = true
          · simp only [hv,hb,Except.map,Outcome.ofExcept,if_true,List.filter_cons,hk,List.filter_nil,
              List.map_cons,List.map_nil,Bool.not_true,Bool.or_self,Bool.false_eq_true,if_false,
              Verdict.mk.injEq,List.cons.injEq,and_true] at h
            rw [← h]
            rfl
          · simp [hv,hb,Except.map,Outcome.ofExcept,hk] at h

/-- Comments take violations away and do nothing else, but where a blank docstring is looked at. -/
theorem apply_heeding_all [Resources] (hx : o.isExposed s = false) (h : (o.ignoring.apply s Check.all).fault = none) :
    o.heeding.apply s Check.all = (o.ignoring.apply s Check.all).heed := by
  cases hs : s.isSilenced with
  | true => exact apply_allOff hs h
  | false =>
    have hrest : ∀ c ∈ Check.all.drop 2, c.isTerminal = false := by decide
    refine apply_terminal_heeding hs rfl (fun v hv _ => ?_) (fun h => ?_) h
    · exact apply_undocumented (found_missing hv) (by decide)
    · refine apply_terminal_heeding hs rfl (fun v hv hoff => ?_) (fun _ => apply_heeding hs hrest) h
      obtain ⟨hskips,hsubject,hcode,hblank⟩ := found_empty hv
      rw [Violation.isSwitchedOff,hsubject,hcode] at hoff
      simp [isExposed,skips_heeding,hs,hskips,hblank,hoff] at hx

/-! ### Blank docstrings that are looked at -/

theorem isPlain_of_value [Resources] (hv : d.value = .ok (.text t)) : d.isPlain = true := by
  unfold Docstring.value at hv
  unfold Docstring.isPlain
  cases hl : Literal.ofText? d.text with
  | none => simp [hl] at hv
  | some l =>
    cases hf : l.isFormatted with
    | true => simp [hl,hf] at hv
    | false =>
      cases hb : l.isBytes with
      | false => simp [hf,hb]
      | true =>
        simp only [hl,hf,Bool.false_eq_true,if_false,Literal.value,hb,if_true] at hv
        cases hg : Grammar.isString d.text with
        | false => simp [hg] at hv
        | true => cases hb : Literal.decodeBytes l.isRaw l.body <;> simp [hg,hb,Except.map] at hv

theorem beforeWords_complete [Resources] (hd : s.docstring = some d) (hv : d.value = .ok (.text t)) :
    (o.apply s beforeWords).fault = none := by
  have hc := Docstring.content_of_value hv
  refine apply_complete fun c hmem _ => ?_
  rw [Check.run_of_documented hd (by rintro rfl; simp [beforeWords] at hmem)]
  simp only [beforeWords,List.mem_cons,List.not_mem_nil,or_false] at hmem
  rcases hmem with rfl | rfl | rfl | rfl | rfl | rfl | rfl | rfl | rfl | rfl
  · exact Outcome.isComplete_ofExcept (Docstring.judged_ok hc _)
  · exact Outcome.isComplete_ofList _
  · exact Outcome.isComplete_ofList _
  · exact Outcome.isComplete_ofExcept (Docstring.judged_ok hc _)
  · exact Check.Layout.indentation_complete s d
  · exact Outcome.isComplete_ofExcept (Docstring.judged_ok hc _)
  · exact Outcome.isComplete_ofExcept (Docstring.judged_ok hc _)
  · exact Outcome.isComplete_ofExcept (Docstring.judged_ok hc _)
  · exact Outcome.isComplete_ofExcept (Check.Wording.quotes_ok (isPlain_of_value hv) hc)
  · exact Outcome.isComplete_ofList _

theorem apply_of_fault [Resources] {e : CheckFault} (hc : c.isTerminal = false) (ha : c.appliesTo s = true)
    (hs : o.skips s = false) (hr : c.run o s = .ofFault e) : o.apply s (c :: cs) = ⟨[],some e⟩ := by
  have hfound : o.found s c = ⟨[],some e⟩ := by simp [found,ha,hs,hr,Outcome.ofFault]
  rw [apply_of_kept (.inl hc),hfound,Verdict.append_of_fault (by simp)]

theorem summaryEnd_blank [Resources] (hv : d.value = .ok (.text t)) (hb : t.isBlank = true) (r : Rule)
    (endings : List Char) : Check.Wording.summaryEnd r endings d = .error .noWord := by
  have hline : Check.Wording.summaryLine t = [] := by
    simp only [Text.isBlank,List.isEmpty_iff] at hb
    simp [Check.Wording.summaryLine,hb]
  rw [Check.Wording.summaryEnd,Docstring.content_of_value hv,ok_bind,hline]
  rfl

theorem apply_exposed [Resources] (hx : o.isExposed s = true) (hd : s.docstring = some d) :
    o.heeding.apply s Check.all = ⟨(o.heeding.apply s beforeWords).violations,some d.blankFault⟩ := by
  simp only [isExposed,hd,Option.any_some,Bool.and_eq_true,Bool.not_eq_true'] at hx
  obtain ⟨⟨hskips,hblank⟩,hoff⟩ := hx
  have hs : s.isSilenced = false := by
    rw [skips_heeding,Bool.or_eq_false_iff] at hskips
    exact hskips.1
  have hmissing : Check.missing.run o.heeding s = {} := run_missing hd
  -- What is switched off is found and dropped, so that the check does not count as terminal.
  have hempty : ∀ v, d.value = .ok v → o.heeding.found s .empty = {} := by
    intro v hv
    have hrun : Check.empty.run o.heeding s = ⟨[Rule.D419.plain],none⟩ := by
      rw [Check.run_of_documented hd (by decide)]
      simp [Check.inspect,Check.Wording.empty_eq,hv,hblank,Except.map,Outcome.ofExcept]
    have hkeeps : o.heeding.keeps s Rule.D419.plain = false := by
      rw [keeps_heeding hs]
      simpa [Finding.code,Rule.plain] using hoff
    simp [found,hrun,hkeeps]
  have hall : ∀ v, d.value = .ok v → o.heeding.apply s Check.all =
      o.heeding.apply s beforeWords ++ o.heeding.apply s (Check.all.drop 12) := by
    intro v hv
    rw [← apply_append (by decide),Check.all,apply_of_nothing hmissing,
      apply_of_kept (.inr (by rw [hempty v hv])),hempty v hv,Verdict.empty_append]
    rfl
  cases hv : d.value with
  | error e => simp [Docstring.isBlank,hv] at hblank
  | ok v =>
    rw [hall v hv]
    cases v with
    | bytes b =>
      have hrun : Check.oneLine.run o.heeding s = .ofFault .byteDocstring := by
        rw [Check.run_of_documented hd (by decide)]
        simp only [Check.inspect,Check.Layout.oneLine,Docstring.judged,Docstring.content,hv]
        rfl
      rw [beforeWords,apply_of_fault rfl rfl hskips hrun,Verdict.append_of_fault (by simp),
        Docstring.blankFault,hv]
    | text t =>
      have hb : t.isBlank = true := by simpa [Docstring.isBlank,hv] using hblank
      have hrun : Check.period.run o.heeding s = .ofFault .noWord := by
        rw [Check.run_of_documented hd (by decide),Check.inspect,summaryEnd_blank hv hb]
        rfl
      have hlast : o.heeding.apply s (Check.all.drop 12) = ⟨[],some .noWord⟩ :=
        apply_of_fault rfl rfl hskips hrun
      rw [Verdict.append_of_none (beforeWords_complete hd hv),hlast,List.append_nil,
        Docstring.blankFault,hv]

/-! ### Subjects one after the other -/

theorem applyAll_heeding [Resources] {ss : List Subject} (hx : ∀ s ∈ ss, o.isExposed s = false)
    (h : (o.ignoring.applyAll ss).fault = none) :
    o.heeding.applyAll ss = (o.ignoring.applyAll ss).heed := by
  induction ss with
  | nil => rfl
  | cons s ss ih =>
    rw [applyAll] at h
    have hfirst := Verdict.fault_of_append h
    rw [Verdict.append_of_none hfirst] at h
    rw [applyAll,applyAll,Verdict.heed_append,apply_heeding_all (hx s (List.mem_cons_self ..)) hfirst,
      ih (fun s' hs' => hx s' (List.mem_cons_of_mem s hs')) h]

theorem applyAll_exposed [Resources] {before after : List Subject} (hb : ∀ s ∈ before, o.isExposed s = false)
    (hx : o.isExposed s = true) (hd : s.docstring = some d)
    (h : (o.ignoring.applyAll (before ++ s :: after)).fault = none) :
    o.heeding.applyAll (before ++ s :: after) =
      ⟨(o.ignoring.applyAll before).heed.violations ++ (o.heeding.apply s beforeWords).violations,
        some d.blankFault⟩ := by
  rw [applyAll_append] at h ⊢
  have hfirst := Verdict.fault_of_append h
  rw [applyAll_heeding hb hfirst,Verdict.append_of_none (a := Verdict.heed _) hfirst,applyAll,
    apply_exposed hx hd,Verdict.append_of_fault (by simp)]

end CheckOptions

section Modules

variable {o : CheckOptions} {m : Module} {s : Subject} {before after : List Subject}

theorem Module.check_exposed [Resources] (h : (m.check o.ignoring).fault = none)
    (hsplit : m.subjects = before ++ s :: after) (hb : ∀ x ∈ before, o.isExposed x = false)
    (hx : o.isExposed s = true) : ∃ d, s.docstring = some d ∧ m.check o.heeding =
      ⟨(o.ignoring.applyAll before).heed.violations ++ (o.heeding.apply s Check.beforeWords).violations,
        some d.blankFault⟩ := by
  cases hd : s.docstring with
  | none => simp [CheckOptions.isExposed,hd] at hx
  | some d =>
    refine ⟨d,rfl,?_⟩
    unfold Module.check at h ⊢
    rw [hsplit] at h ⊢
    exact CheckOptions.applyAll_exposed hb hx hd h

theorem Module.check_heed_iff [Resources] (h : (m.check o.ignoring).fault = none) :
    m.check o.heeding = (m.check o.ignoring).heed ↔ ∀ s ∈ m.subjects, o.isExposed s = false := by
  constructor
  · intro heq
    cases hfind : m.subjects.find? o.isExposed with
    | none => simpa using hfind
    | some s =>
      obtain ⟨hx,before,after,hsplit,hb⟩ := List.find?_eq_some_iff_append.1 hfind
      obtain ⟨d,-,hcheck⟩ := Module.check_exposed h hsplit (fun x hx => by simpa using hb x hx) hx
      have hfault : some d.blankFault = (m.check o.ignoring).fault :=
        congrArg Verdict.fault (hcheck.symm.trans heq)
      rw [h] at hfault
      cases hfault
  · exact fun hx => CheckOptions.applyAll_heeding hx h

end Modules

/-- For every text whose checks come to an end while comments are ignored: heeding them drops exactly
what they switch off, if and only if no blank docstring is looked at. The first one that is breaks the
checks off, behind what is found about it before its words are looked for. -/
theorem checkSource_heed_iff [Resources] {o : CheckOptions} {file source : Text} {verdict : Verdict}
    (hv : checkSource o.ignoring file source = .ok verdict) (hf : verdict.fault = none) :
    ∃ m, Module.ofText file source = .ok m ∧
      (checkSource o.heeding file source = .ok verdict.heed ↔ ∀ s ∈ m.subjects, o.isExposed s = false) ∧
      ∀ before s after, m.subjects = before ++ s :: after → (∀ x ∈ before, o.isExposed x = false) →
        o.isExposed s = true → ∃ d, s.docstring = some d ∧ checkSource o.heeding file source =
          .ok ⟨(o.ignoring.applyAll before).heed.violations ++
            (o.heeding.apply s Check.beforeWords).violations,some d.blankFault⟩ := by
  obtain ⟨m,hm,rfl⟩ := checkSource_eq_ok.mp hv
  have hheeding : checkSource o.heeding file source = .ok (m.check o.heeding) := by
    simp [checkSource,hm,Except.map]
  refine ⟨m,hm,?_,fun before s after hsplit hb hx => ?_⟩
  · rw [hheeding,Except.ok.injEq]
    exact Module.check_heed_iff hf
  · obtain ⟨d,hd,hcheck⟩ := Module.check_exposed hf hsplit hb hx
    exact ⟨d,hd,by rw [hheeding,hcheck]⟩

/-- A function whose missing docstring is switched off, and a class with a blank docstring about which
everything is. -/
def silenced : Text := "def f():  # noqa: D103\n  pass\nclass A:  # noqa\n  ''\n"

open Resources.Builtin

theorem checkSource_heed_iff_silenced : ∃ verdict,
    checkSource (CheckOptions.ignoring {}) "a.py" silenced = .ok verdict ∧ verdict.fault = none ∧
      verdict.violations.length = 3 ∧
      checkSource (CheckOptions.heeding {}) "a.py" silenced = .ok verdict.heed := by
  have hrun : ((Module.ofText "a.py" silenced).toOption.any fun m =>
      (m.check (CheckOptions.ignoring {})).fault.isNone &&
        (m.check (CheckOptions.ignoring {})).violations.length == 3 &&
        m.subjects.all fun s => !CheckOptions.isExposed {} s) = true := by
    decide +kernel
  obtain ⟨m,hm,hrun⟩ := exists_of_any hrun
  simp only [Bool.and_eq_true,Option.isNone_iff_eq_none,beq_iff_eq,
    List.all_eq_true,Bool.not_eq_true'] at hrun
  have hv : checkSource (CheckOptions.ignoring {}) "a.py" silenced =
      .ok (m.check (CheckOptions.ignoring {})) := by
    rw [checkSource,hm]
    rfl
  obtain ⟨m',hm',hiff,-⟩ := checkSource_heed_iff hv hrun.1.1
  obtain rfl : m = m' := Except.ok.inj (hm.symm.trans hm')
  exact ⟨_,hv,hrun.1.1,hrun.1.2,hiff.2 hrun.2⟩

def barelySilenced : Text := "def f():  # noqa: D419\n    \"\"\" \"\"\"\n"

/-- The checks come to an end while comments are ignored. Heeding the comment adds a violation and
breaks the checks off. -/
theorem barelySilenced_breaks_off : ∃ ignored heeded,
    checkSource (CheckOptions.ignoring {}) "a.py" barelySilenced = .ok ignored ∧
      checkSource (CheckOptions.heeding {}) "a.py" barelySilenced = .ok heeded ∧
      ignored.fault = none ∧ ignored.violations.map Violation.code = Text.literals ["D100","D419"] ∧
      heeded.fault = some .noWord ∧ heeded.violations.map Violation.code = Text.literals ["D100","D210"] := by
  have hrun : ((Module.ofText "a.py" barelySilenced).toOption.any fun m =>
      (m.check (CheckOptions.ignoring {})).fault == none &&
        (m.check (CheckOptions.ignoring {})).violations.map Violation.code ==
          Text.literals ["D100","D419"] &&
        (m.check (CheckOptions.heeding {})).fault == some .noWord &&
        (m.check (CheckOptions.heeding {})).violations.map Violation.code ==
          Text.literals ["D100","D210"]) = true := by
    decide +kernel
  obtain ⟨m,hm,hrun⟩ := exists_of_any hrun
  simp only [Bool.and_eq_true,beq_iff_eq] at hrun
  exact ⟨m.check (CheckOptions.ignoring {}),m.check (CheckOptions.heeding {}),by rw [checkSource,hm]; rfl,
    by rw [checkSource,hm]; rfl,hrun.1.1.1,hrun.1.1.2,hrun.1.2,hrun.2⟩

end DocLint
