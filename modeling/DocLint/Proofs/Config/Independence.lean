import DocLint.Proofs.Config.CommandLine
import DocLint.Proofs.Config.History
import DocLint.Proofs.Text.Cutting

/-!
Sessions that are asked for one location after the other. What they answer depends on the locations
before in one way only: through the standard list of codes, which some folders change in place.
-/

set_option autoImplicit false

namespace DocLint

namespace Lookup

variable {w : Workspace} {given : Settings} {o : Override} {run : RunOptions} {s s₀ : Session}
  {names : List Text} {location : Text}

theorem proper_namesOf (location : Text) : Proper (namesOf location) := by
  intro n hn
  simp only [namesOf,List.mem_reverse,List.mem_filter,Bool.not_eq_true',List.isEmpty_eq_false_iff] at hn
  exact ⟨hn.2,Text.not_mem_of_mem_splitOn hn.1⟩

theorem splitOn_locationOf (h : Proper names) (hne : names ≠ []) :
    Text.splitOn '/' (locationOf names) = [] :: names.reverse := by
  refine (Text.splitOn_append (p := []) List.not_mem_nil _).trans (congrArg _ ?_)
  exact Text.splitOn_join (by simpa using hne) fun n hn => (h n (List.mem_reverse.1 hn)).2

theorem namesOf_locationOf (h : Proper names) : namesOf (locationOf names) = names := by
  by_cases hne : names = []
  · subst hne
    rfl
  · have hfilter : names.reverse.filter (!·.isEmpty) = names.reverse := by
      refine List.filter_eq_self.2 fun n hn => ?_
      simpa using (h n (List.mem_reverse.1 hn)).1
    rw [namesOf,splitOn_locationOf h hne,List.filter_cons_of_neg (by simp),hfilter,List.reverse_reverse]

/-! ### Lookups one after the other -/

def after (w : Workspace) : Session → List Text → Session
  | s, [] => s
  | s, location :: more =>
    match config w location s with
    | .ok _ s' => after w s' more
    | .error _ s' => after w s' more

def answer (w : Workspace) (location : Text) (s : Session) : Except ConfigFault Answer :=
  match config w location s with
  | .ok c s' => .ok (answerIn s'.ledger c)
  | .error e _ => .error e

def Independent (w : Workspace) (s : Session) : Prop :=
  ∀ before before' location, answer w location (after w s before) = answer w location (after w s before')

theorem after_append (before : List Text) (s : Session) (location : Text) :
    after w s (before ++ [location]) = after w (after w s before) [location] := by
  induction before generalizing s with
  | nil => rfl
  | cons l before ih =>
    simp only [List.cons_append,after]
    cases config w l s <;> exact ih _

theorem after_of_gives {r : Except ConfigFault Config} {s' : Session}
    (h : Gives (config w location) s r s') : after w s [location] = s' := by
  cases r <;> simp only [Gives] at h <;> simp only [after,h]

theorem answer_of_gives {r : Except ConfigFault Config} {s' : Session}
    (h : Gives (config w location) s r s') : answer w location s = r.map (answerIn s'.ledger) := by
  cases r <;> simp only [Gives] at h <;> simp only [answer,h] <;> rfl

theorem independent_of_eq
    (h : ∀ before location, answer w location (after w s before) = answer w location s) :
    Independent w s := fun before before' location => by rw [h before,h before']

theorem config_looked (h : Settled given o run s) (hr : run.config = none) (location : Text) :
    ∃ r s', Gives (config w location) s r s' ∧ Settled given o run s' ∧
      Looked w given o s.ledger (namesOf location) r s'.ledger := by
  obtain ⟨r,s',hg,hs',hl⟩ := @discover_looked w _ _ _ _ (namesOf location) h
  have hc : config w location s = discover w (namesOf location) s := by
    refine (bind_ok rfl).trans ?_
    simp only [h.run,hr]
  refine ⟨r,s',?_,hs',hl⟩
  cases r <;> exact hc.trans hg

theorem reached_after (h : Settled given o run s) (hr : run.config = none) (before : List Text)
    {l₀ : Ledger} (hl : Reached w given o l₀ s.ledger) :
    Settled given o run (after w s before) ∧ Reached w given o l₀ (after w s before).ledger := by
  induction before generalizing s with
  | nil => exact ⟨h,hl⟩
  | cons location before ih =>
    obtain ⟨r,s',hg,hs',hl'⟩ := config_looked (w := w) h hr location
    have hstep := hl.step (proper_namesOf location) hl'
    cases r <;> simp only [Gives] at hg <;> simp only [after,hg] <;> exact ih hs' hstep

theorem exists_after (h : Settled given o run s) (hr : run.config = none) {l : Ledger}
    (hl : Reached w given o s.ledger l) : ∃ before, (after w s before).ledger = l := by
  induction hl with
  | start => exact ⟨[],rfl⟩
  | @step l l' names r hl hn hlook ih =>
    obtain ⟨before,rfl⟩ := ih
    obtain ⟨hs₁,-⟩ := reached_after (w := w) h hr before .start
    obtain ⟨r',s',hg,-,hl'⟩ := config_looked (w := w) hs₁ hr (locationOf names)
    rw [namesOf_locationOf hn] at hl'
    obtain ⟨-,rfl⟩ := hlook.unique hl'
    refine ⟨before ++ [locationOf names],?_⟩
    rw [after_append,after_of_gives hg]

theorem independent_iff_unaffected (h : Settled given o run s) (hr : run.config = none) :
    Independent w s ↔ Unaffected w given o s.ledger := by
  constructor
  · intro hi l l' l₁ names r r' hl hn hlook hlook'
    obtain ⟨before,rfl⟩ := exists_after h hr hl
    obtain ⟨hs₁,-⟩ := reached_after (w := w) h hr before .start
    obtain ⟨r₁,s₁,hg₁,-,hl₁⟩ := config_looked (w := w) hs₁ hr (locationOf names)
    obtain ⟨r₂,s₂,hg₂,-,hl₂⟩ := config_looked (w := w) h hr (locationOf names)
    rw [namesOf_locationOf hn] at hl₁ hl₂
    obtain ⟨rfl,rfl⟩ := hlook.unique hl₁
    obtain ⟨rfl,rfl⟩ := hlook'.unique hl₂
    have he := hi before [] (locationOf names)
    rwa [answer_of_gives hg₁,show after w s [] = s from rfl,answer_of_gives hg₂] at he
  · refine fun hu => independent_of_eq fun before location => ?_
    obtain ⟨hs₁,hl⟩ := reached_after (w := w) h hr before .start
    obtain ⟨r₁,s₁,hg₁,-,hl₁⟩ := config_looked (w := w) hs₁ hr location
    obtain ⟨r₂,s₂,hg₂,-,hl₂⟩ := config_looked (w := w) h hr location
    rw [answer_of_gives hg₁,answer_of_gives hg₂]
    exact hu hl (proper_namesOf location) hl₁ hl₂

/-! ### The only configuration file -/

def named (w : Workspace) (given : Settings) (file : Text) : Except ConfigFault Settings :=
  match (Config.settingsIn w file).run [] with
  | .error e _ => .error e
  | .ok (own, _) _ => .ok (own.getD given)

theorem namedSettings_error {file : Text} {e : ConfigFault} (hn : named w given file = .error e) :
    ∃ lines, namedSettings w file s = .error e (s.record lines) := by
  unfold named at hn
  split at hn
  · rename_i lines hr
    obtain rfl := Except.error.inj hn
    exact ⟨lines,bind_error (ofLogged_error hr)⟩
  · cases hn

theorem namedSettings_ok {file : Text} {own : Settings} (h : Settled given o run s)
    (hn : named w given file = .ok own) :
    ∃ lines, namedSettings w file s = .ok own (s.record lines) := by
  unfold named at hn
  split at hn
  · cases hn
  · rename_i found b lines hr
    obtain rfl := Except.ok.inj hn
    cases found with
    | some own => exact ⟨lines,bind_ok (ofLogged_ok hr)⟩
    | none =>
      refine ⟨lines ++ [⟨.warning,noSectionText⟩],(bind_ok (ofLogged_ok hr)).trans ?_⟩
      rw [← record_record]
      exact (bind_ok rfl).trans (settings_ok ((h.record lines).record _))

theorem keptNamed_known {file : Text} {c : Config} (hk : s.knownNamed = some c) :
    keptNamed w file s = .ok c s := by
  refine (bind_ok rfl).trans ?_
  simp only [hk]
  rfl

theorem keptNamed_first {file : Text} {own : Settings} {st : Start} (h : Settled given o run s)
    (hk : s.knownNamed = none) (hn : named w given file = .ok own) (hs : own.start = .ok st) :
    ∃ c s', keptNamed w file s = .ok c s' ∧ Settled given o run s' ∧ s'.knownNamed = some c ∧
      c = overriddenBy o (created (s.ledger.make .namedFile own st).1 own) ∧
      s'.ledger = (s.ledger.make .namedFile own st).2.adjust c.codes given := by
  obtain ⟨lines,hr⟩ := namedSettings_ok h hn
  obtain ⟨s₁,hc,hl₁,hs₁⟩ := @create_ok _ _ _ _ own .namedFile st (h.record lines) hs
  obtain ⟨s₂,hf,hl₂,hs₂⟩ := finish_ok (c := created (s.ledger.make .namedFile own st).1 own) hs₁
  refine ⟨_,{ s₂ with knownNamed := some _ },(bind_ok rfl).trans ?_,⟨hs₂.settings,hs₂.override,hs₂.run⟩,
    rfl,rfl,?_⟩
  · simp only [hk]
    exact (bind_ok hr).trans ((bind_ok hc).trans ((bind_ok hf).trans rfl))
  · refine Eq.trans hl₂ ?_
    rw [hl₁]
    rfl

/-- A file that cannot be taken up is read by every lookup, to the same effect. -/
theorem keptNamed_error {file : Text} {e : ConfigFault} (h : Settled given o run s)
    (hk : s.knownNamed = none)
    (hn : named w given file = .error e ∨ ∃ own, named w given file = .ok own ∧ own.start = .error e) :
    ∃ lines, keptNamed w file s = .error e (s.record lines) := by
  rcases hn with hn | ⟨own,hn,hs⟩
  · obtain ⟨lines,hr⟩ := @namedSettings_error w given s file e hn
    refine ⟨lines,(bind_ok rfl).trans ?_⟩
    simp only [hk]
    exact bind_error hr
  · obtain ⟨lines,hr⟩ := namedSettings_ok h hn
    refine ⟨lines,(bind_ok rfl).trans ?_⟩
    simp only [hk]
    exact (bind_ok hr).trans (bind_error (bind_error (bind_error (startingCodes_error hs))))

/-- The answer is always the same where each lookup gives it and keeps what it depends on. -/
theorem independent_of_invariant {P : Session → Prop} {a : Except ConfigFault Answer}
    (hstep : ∀ location s, P s → ∃ r s', Gives (config w location) s r s' ∧
      r.map (answerIn s'.ledger) = a ∧ P s') (hs : P s) : Independent w s := by
  have hafter : ∀ before s, P s → P (after w s before) := by
    intro before
    induction before with
    | nil => exact fun s hs => hs
    | cons location before ih =>
      intro s hs
      obtain ⟨r,s',hg,-,hs'⟩ := hstep location s hs
      cases r <;> simp only [Gives] at hg <;> simp only [after,hg] <;> exact ih s' hs'
  have hanswer : ∀ location s, P s → answer w location s = a := by
    intro location s hs
    obtain ⟨r,s',hg,ha,-⟩ := hstep location s hs
    rw [answer_of_gives hg,ha]
  intro before before' location
  rw [hanswer location _ (hafter before s hs),hanswer location _ (hafter before' s hs)]

theorem config_named {file : Text} (h : Settled given o run s) (hf : run.config = some file)
    (location : Text) : config w location s = ofNamedFile w file s := by
  refine (bind_ok rfl).trans ?_
  simp only [h.run,hf]

theorem ofNamedFile_missing {file : Text} (hx : ¬ w.files.exists? file = true) :
    ∃ lines, ofNamedFile w file s = .error (namedMissing file) (s.record lines) := by
  refine ⟨[⟨.debug,"Using config file ".toList ++ file.quoted⟩],(bind_ok rfl).trans ?_⟩
  rw [if_neg hx]
  rfl

theorem ofNamedFile_exists {file : Text} (hx : w.files.exists? file = true) (s : Session) :
    ∃ lines, ofNamedFile w file s = keptNamed w file (s.record lines) := by
  refine ⟨[⟨.debug,"Using config file ".toList ++ file.quoted⟩],(bind_ok rfl).trans ?_⟩
  rw [if_pos hx]

def once (w : Workspace) (given : Settings) (o : Override) (file : Text) (l : Ledger) :
    Except ConfigFault (Config × Ledger) :=
  if w.files.exists? file then do
    let own ← named w given file
    let st ← own.start
    let made := l.make .namedFile own st
    let c := overriddenBy o (created made.1 own)
    return (c, made.2.adjust c.codes given)
  else .error (namedMissing file)

/-- A session in which there is only one file: it is read by the first lookup, and from then on nothing
changes. -/
structure Once (w : Workspace) (given : Settings) (o : Override) (run : RunOptions) (file : Text)
    (l₀ : Ledger) (s : Session) : Prop where
  settled : Settled given o run s
  state : s.knownNamed = none ∧ s.ledger = l₀ ∨
    ∃ c, once w given o file l₀ = .ok (c, s.ledger) ∧ s.knownNamed = some c

theorem exists_of_once {file : Text} {l₀ l : Ledger} {c : Config}
    (h : once w given o file l₀ = .ok (c, l)) :
    w.files.exists? file = true ∧ ∃ own st, named w given file = .ok own ∧ own.start = .ok st ∧
      c = overriddenBy o (created (l₀.make .namedFile own st).1 own) ∧
      l = (l₀.make .namedFile own st).2.adjust c.codes given := by
  unfold once at h
  split at h
  · rename_i hx
    refine ⟨hx,?_⟩
    cases hn : named w given file with
    | error e =>
      rw [hn] at h
      cases h
    | ok own =>
      cases hs : own.start with
      | error e =>
        rw [hn] at h
        change (own.start >>= _) = _ at h
        rw [hs] at h
        cases h
      | ok st =>
        rw [hn] at h
        change (own.start >>= _) = _ at h
        rw [hs] at h
        cases h
        exact ⟨own,st,rfl,hs,rfl,rfl⟩
  · cases h

theorem once_ok {file : Text} {l₀ : Ledger} {own : Settings} {st : Start}
    (hx : w.files.exists? file = true) (hn : named w given file = .ok own) (hs : own.start = .ok st) :
    once w given o file l₀ = .ok (overriddenBy o (created (l₀.make .namedFile own st).1 own),
      (l₀.make .namedFile own st).2.adjust
        (overriddenBy o (created (l₀.make .namedFile own st).1 own)).codes given) := by
  unfold once
  rw [if_pos hx,hn]
  change (own.start >>= _) = _
  rw [hs]
  rfl

theorem once_error {file : Text} {l₀ : Ledger} {e : ConfigFault} (hx : w.files.exists? file = true)
    (hn : named w given file = .error e ∨ ∃ own, named w given file = .ok own ∧ own.start = .error e) :
    once w given o file l₀ = .error e := by
  unfold once
  rw [if_pos hx]
  rcases hn with hn | ⟨own,hn,hs⟩
  · rw [hn]
    rfl
  · rw [hn]
    change (own.start >>= _) = _
    rw [hs]
    rfl

theorem Once.config {file : Text} {l₀ : Ledger} (h : Once w given o run file l₀ s)
    (hf : run.config = some file) (location : Text) :
    ∃ s', Gives (config w location) s ((once w given o file l₀).map Prod.fst) s' ∧
      Once w given o run file l₀ s' ∧ ∀ c l, once w given o file l₀ = .ok (c, l) → s'.ledger = l := by
  obtain ⟨hs,hstate⟩ := h
  by_cases hx : w.files.exists? file = true
  · obtain ⟨lines,hr⟩ := ofNamedFile_exists hx s
    have hconfig := (config_named hs hf location).trans hr
    rcases hstate with ⟨hk,hl⟩ | ⟨c,ho,hk⟩
    · have hfault {e : ConfigFault} (he : named w given file = .error e ∨
          ∃ own, named w given file = .ok own ∧ own.start = .error e) :
          ∃ s', Gives (Lookup.config w location) s ((once w given o file l₀).map Prod.fst) s' ∧
            Once w given o run file l₀ s' ∧
            ∀ c l, once w given o file l₀ = .ok (c, l) → s'.ledger = l := by
        rw [once_error hx he]
        obtain ⟨more,hr'⟩ := keptNamed_error (hs.record lines) hk he
        exact ⟨_,hconfig.trans hr',⟨(hs.record lines).record more,.inl ⟨hk,hl⟩⟩,by simp⟩
      cases hn : named w given file with
      | error e => exact hfault (.inl hn)
      | ok own =>
        cases hst : own.start with
        | error e => exact hfault (.inr ⟨own,hn,hst⟩)
        | ok st =>
          obtain ⟨c,s',hr',hs',hk',hc,hl'⟩ := keptNamed_first (hs.record lines) hk hn hst
          rw [show (s.record lines).ledger = l₀ from hl] at hc hl'
          have honce : once w given o file l₀ = .ok (c, s'.ledger) := by rw [once_ok hx hn hst,hl',hc]
          rw [honce]
          exact ⟨s',hconfig.trans hr',⟨hs',.inr ⟨c,honce,hk'⟩⟩,by simp⟩
    · rw [ho]
      refine ⟨_,hconfig.trans (keptNamed_known hk),⟨hs.record lines,.inr ⟨c,ho,hk⟩⟩,?_⟩
      rintro _ _ ⟨⟩
      rfl
  · obtain ⟨lines,hr⟩ := @ofNamedFile_missing w s file hx
    have honce : once w given o file l₀ = .error (namedMissing file) := if_neg hx
    rw [honce]
    refine ⟨_,(config_named hs hf location).trans hr,⟨hs.record lines,?_⟩,by simp⟩
    rcases hstate with hstate | ⟨c,ho,-⟩
    · exact .inl hstate
    · simp [honce] at ho

theorem independent_named {file : Text} (h : Settled given o run s) (hf : run.config = some file)
    (hk : s.knownNamed = none) : Independent w s := by
  refine independent_of_invariant (P := Once w given o run file s.ledger)
    (a := (once w given o file s.ledger).map fun x => answerIn x.2 x.1)
    (fun location s' h' => ?_) ⟨h,.inl ⟨hk,rfl⟩⟩
  obtain ⟨s'',hg,ho,hl⟩ := h'.config hf location
  refine ⟨_,s'',hg,?_,ho⟩
  cases honce : once w given o file s.ledger with
  | error e => rfl
  | ok x =>
    obtain ⟨c,l⟩ := x
    rw [hl c l honce]
    rfl

/-! ### All answers of a session -/

def Answer.others (a : Answer) : Toml.Value × Toml.Value × Toml.Value × Toml.Value :=
  (a.files, a.folders, a.ignoreDecorators, a.propertyDecorators)

/-- Faults and all of a configuration but its codes never depend on what was looked up before. -/
theorem others_after (h : Settled given o run s) (hr : run.config = none)
    (h₀ : ∀ folder, s.ledger.known folder = none) (before : List Text) (location : Text) :
    (answer w location (after w s before)).map Answer.others = (answer w location s).map Answer.others := by
  obtain ⟨hs₁,hl⟩ := reached_after (w := w) h hr before .start
  obtain ⟨r₁,s₁,hg₁,-,hl₁⟩ := config_looked (w := w) hs₁ hr location
  obtain ⟨r₂,s₂,hg₂,-,hl₂⟩ := config_looked (w := w) h hr location
  obtain rfl := hl₁.same_result h₀ hl hl₂
  rw [answer_of_gives hg₁,answer_of_gives hg₂]
  cases r₁ <;> rfl

/-- What a session answers for a location does not depend on the locations before in exactly these
cases: there is only one configuration file, the command line names the codes, or the folders that
change the standard list of codes are in harmony with each other and with those that copy it. All but
the codes never depends on them. -/
theorem independent_iff {words : List Text} (hstart : Session.start words s.renew = .ok o s₀) :
    ∃ given run, s₀.settings = some given ∧ s₀.run = some run ∧
      (Independent w s₀ ↔ run.config.isSome ∨ o.codes.isSome ∨
        Harmonious w given (s₀.codesAt .standard).has) ∧
      ∀ before before' location, (answer w location (after w s₀ before)).map Answer.others =
        (answer w location (after w s₀ before')).map Answer.others := by
  obtain ⟨given,run,hb⟩ := start_ok hstart
  have hs := hb.settled
  refine ⟨given,run,hs.settings,hs.run,?_⟩
  have h₀ : ∀ folder, s₀.ledger.known folder = none := fun folder => by
    simp [Session.ledger,hb.known,Session.renew]
  cases hr : run.config with
  | some file =>
    have hi : Independent w s₀ := independent_named hs hr hb.knownNamed
    exact ⟨iff_of_true hi (.inl rfl),fun before before' location => by rw [hi before before' location]⟩
  | none =>
    refine ⟨?_,fun before before' location => by rw [others_after hs hr h₀,others_after hs hr h₀]⟩
    rw [independent_iff_unaffected hs hr]
    rcases hb.codes with ho | ⟨turn,ho,hc⟩
    · simp only [ho,Option.isSome_none,Bool.false_eq_true,false_or]
      exact unaffected_iff ho h₀
    · exact iff_of_true (unaffected_override ho (by simp) (by simp) hc h₀) (.inr (.inl (by simp [ho])))

/-- A folder whose file adds a code and keeps nothing of the folder above, beside an empty folder. -/
def sideBySide : Workspace where
  files :=
    { root := .folder "a" (.file "setup.cfg" ("[pydocstyle]\ninherit=false\nadd-select=D203\n".toList.map
          fun c => c.toNat.toUInt8) .empty) (.folder "b" .empty .empty)
      working := [] }

theorem independent_iff_sideBySide : ∃ o s₀, Session.start [] ({} : Session).renew = .ok o s₀ ∧
    ∃ given run, s₀.settings = some given ∧ s₀.run = some run ∧
      (Independent sideBySide s₀ ↔ run.config.isSome ∨ o.codes.isSome ∨
        Harmonious sideBySide given (s₀.codesAt .standard).has) ∧
      ∀ before before' location, (answer sideBySide location (after sideBySide s₀ before)).map
        Answer.others = (answer sideBySide location (after sideBySide s₀ before')).map Answer.others :=
  ⟨_,_,rfl,@independent_iff sideBySide _ {} _ [] rfl⟩

def checks (w : Workspace) (location code : Text) (s : Session) : Bool :=
  match config w location s with
  | .ok c s' => (s'.codesAt c.codes).contains code
  | .error _ _ => false

theorem checks_of_answer {s s' : Session} (h : answer w location s = answer w location s')
    (code : Text) : checks w location code s = checks w location code s' := by
  unfold answer at h
  unfold checks
  split at h <;> split at h
  · rename_i c₁ s₁ h₁ _ c₂ s₂ h₂
    have hc := congrFun (congrArg Answer.codes (Except.ok.inj h)) code
    rw [Bool.eq_iff_iff]
    simpa [answerIn,Session.ledger,CodeSet.has] using hc
  all_goals simp_all

/-- The codes of the empty folder depend on whether its neighbour was looked up. -/
theorem sideBySide_not_independent : ∃ o s₀, Session.start [] ({} : Session).renew = .ok o s₀ ∧
    ¬ Independent sideBySide s₀ := by
  refine ⟨_,_,rfl,fun h => ?_⟩
  have hc := checks_of_answer (h ["/a"] [] "/b") "D203"
  revert hc
  decide +kernel

end Lookup

end DocLint
