import DocLint.Proofs.Config.Ledger

/-!
What a command line leaves in a session: its settings, and a list of codes of its own, if it names
codes to start from.
-/

set_option autoImplicit false

namespace DocLint.Lookup

variable {α β : Type} {given : Settings} {o : Override} {run : RunOptions} {s s' s₀ : Session}

theorem start_ne_standard {st : Start} (hx : given.isExclusive = true) (hs : given.start = .ok st) :
    st ≠ .standard := by
  rintro rfl
  unfold Settings.start at hs
  simp only [Settings.isExclusive] at hx
  split at hs <;> simp_all
  split at hs <;> simp_all

theorem exists_of_bind {r : Lookup α} {f : α → Lookup β} {b : β} (h : (r >>= f) s = .ok b s') :
    ∃ a s₁, r s = .ok a s₁ ∧ f a s₁ = .ok b s' := by
  change EStateM.bind r f s = _ at h
  simp only [EStateM.bind] at h
  split at h
  · rename_i a s₁ hr
    exact ⟨a,s₁,hr,h⟩
  · cases h

theorem exists_of_ofLogged {x : Logged ConfigFault α} {a : α} (h : ofLogged x s = .ok a s') :
    ∃ lines, x.run [] = .ok a lines ∧ s' = s.record lines := by
  unfold ofLogged at h
  split at h
  · rename_i lines hr
    cases h
    exact ⟨lines,hr,rfl⟩
  · cases h

/-- A list that is made anew holds what the settings make of the codes to start from. -/
theorem makeCodes_new {own : Settings} {origin : Origin} {st : Start} {codes : CodeSet}
    (hs : own.start = .ok st) (hn : s.newCodes st = some codes) :
    ∃ lists, makeCodes origin own s = .ok origin { s with lists := lists } ∧
      ({ s with lists := lists } : Session).ledger =
        (s.ledger.put origin codes.has).adjust origin own := by
  obtain ⟨revised,hr⟩ : ∃ revised, revised = CodeSet.revise own.addSelect own.addIgnore
    ((s.setCodes origin codes).codesAt origin) := ⟨_,rfl⟩
  refine ⟨((s.setCodes origin codes).setCodes origin revised).lists,
    (bind_ok (startingCodes_ok hs)).trans ?_,?_⟩
  · simp only [hn,hr]
    rfl
  · refine (Session.ledger_setCodes (s.setCodes origin codes) origin revised).trans ?_
    rw [hr,Settings.has_revise,Session.ledger_setCodes,Session.codesAt_setCodes,if_pos rfl]
    simp [Ledger.adjust]

structure Listed (given : Settings) (o : Override) (s s₀ : Session) : Prop where
  origin : o.codes = if given.isExclusive then some (.commandLine s.turn) else none
  standard : s₀.ledger.codes .standard = s.ledger.codes .standard
  codes : given.isExclusive = true → ∃ st codes, given.start = .ok st ∧ s.newCodes st = some codes ∧
    s₀.ledger.codes (.commandLine s.turn) = given.adjust codes.has

theorem overrideOf_ok (h : Session.overrideOf given s = .ok o s') :
    ∃ lists, s' = { s with lists := lists } ∧ Listed given o s s' ∧ o.files = given.files ∧
      o.folders = given.folders ∧ o.ignoreDecorators = given.ignoreDecorators ∧
      o.propertyDecorators = given.propertyDecorators := by
  obtain ⟨codes,s₁,hcodes,ho⟩ := exists_of_bind h
  cases ho
  unfold Session.overridingCodes at hcodes
  by_cases hx : given.isExclusive = true
  · rw [if_pos hx] at hcodes
    obtain ⟨turn,s₂,hget,hcodes⟩ := exists_of_bind hcodes
    cases hget
    obtain ⟨origin,s₂,hmake,hcodes⟩ := exists_of_bind hcodes
    cases hcodes
    cases hs : given.start with
    | error e => cases (bind_error (startingCodes_error hs)).symm.trans hmake
    | ok st =>
      have hne := start_ne_standard hx hs
      cases hn : s.newCodes st with
      | none => cases st <;> simp_all [Session.newCodes]
      | some codes =>
        obtain ⟨lists,hm,hl⟩ := @makeCodes_new s _ (.commandLine s.turn) _ _ hs hn
        cases hm.symm.trans hmake
        refine ⟨lists,rfl,⟨(if_pos hx).symm,?_,fun _ => ⟨st,codes,hs,hn,?_⟩⟩,rfl,rfl,rfl,rfl⟩ <;> simp [hl]
  · rw [if_neg hx] at hcodes
    cases hcodes
    exact ⟨s.lists,rfl,⟨(if_neg hx).symm,rfl,fun hx' => absurd hx' hx⟩,rfl,rfl,rfl,rfl⟩

/-- A session in which a command line has been taken up, and nothing looked up since. -/
structure Begun (given : Settings) (o : Override) (run : RunOptions) (s s₀ : Session) : Prop where
  settled : Settled given o run s₀
  known : s₀.known = s.known
  knownNamed : s₀.knownNamed = s.knownNamed
  targets : ∃ targets, s₀.targets = some targets
  trail : ∃ lines : List LogLine, s₀.trail = s.trail ++ lines.map .log
  listed : Listed given o s s₀
  files : o.files = given.files
  folders : o.folders = given.folders
  ignoreDecorators : o.ignoreDecorators = given.ignoreDecorators
  propertyDecorators : o.propertyDecorators = given.propertyDecorators

theorem takeUp_ok {a : Arguments} (h : Session.takeUp a s = .ok o s₀) :
    ∃ given lines, (Config.expandGiven a.given).run [] = .ok given lines ∧
      Begun given o a.run s s₀ := by
  obtain ⟨given,s₁,hgiven,h⟩ := exists_of_bind h
  obtain ⟨lines,hexpand,rfl⟩ := exists_of_ofLogged hgiven
  obtain ⟨_,s₂,hs₂,h⟩ := exists_of_bind h
  cases hs₂
  obtain ⟨_,s₃,hs₃,h⟩ := exists_of_bind h
  obtain ⟨more,-,rfl⟩ := exists_of_ofLogged hs₃
  obtain ⟨_,s₄,hs₄,h⟩ := exists_of_bind h
  cases hs₄
  obtain ⟨o',s₅,ho,h⟩ := exists_of_bind h
  obtain ⟨lists,rfl,hlisted,hfiles,hfolders,hignored,hproperty⟩ := overrideOf_ok ho
  obtain ⟨_,s₆,hs₆,h⟩ := exists_of_bind h
  cases hs₆
  cases h
  exact ⟨given,lines,hexpand,⟨rfl,rfl,rfl⟩,rfl,rfl,⟨_,rfl⟩,⟨lines ++ more,by simp [Session.record]⟩,
    ⟨hlisted.origin,hlisted.standard,hlisted.codes⟩,hfiles,hfolders,hignored,hproperty⟩

theorem start_ok {words : List Text} (h : Session.start words s = .ok o s₀) :
    ∃ given run, Begun given o run s s₀ := by
  unfold Session.start at h
  split at h
  · cases h
  · rename_i a ha
    split at h
    · rename_i o' s' ht
      cases h
      obtain ⟨given,-,-,hb⟩ := takeUp_ok ht
      exact ⟨given,a.run,hb⟩
    · cases h

theorem Begun.codes (h : Begun given o run s s₀) : o.codes = none ∨ ∃ turn,
    o.codes = some (.commandLine turn) ∧
      given.adjust (s₀.ledger.codes (.commandLine turn)) = s₀.ledger.codes (.commandLine turn) := by
  by_cases hx : given.isExclusive = true
  · obtain ⟨st,codes,-,-,hc⟩ := h.listed.codes hx
    refine .inr ⟨s.turn,by rw [h.listed.origin,if_pos hx],?_⟩
    rw [hc,Settings.adjust_adjust]
  · exact .inl (by rw [h.listed.origin,if_neg hx])

/-- Whether a command line is taken up by a new session, in which something then holds. -/
def opens (words : List Text) (p : Session → Bool) : Bool :=
  match Session.start words {} with
  | .ok _ s => p s
  | .error _ _ => false

theorem exists_of_opens {words : List Text} {p : Session → Bool} (h : opens words p = true) :
    ∃ o s, Session.start words {} = .ok o s ∧ p s = true := by
  unfold opens at h
  split at h
  · rename_i o s hs
    exact ⟨o,s,hs,h⟩
  · cases h

end DocLint.Lookup
