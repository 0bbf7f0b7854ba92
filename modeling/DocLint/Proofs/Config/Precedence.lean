import DocLint.Proofs.Config.Discovery
import DocLint.Proofs.Config.Inheritance
import DocLint.Resources.Builtin

/-!
What the command line says counts in all folders, at any time and whatever their files say: each value
that it gives, and the codes if it names codes to start from.
-/

set_option autoImplicit false

namespace DocLint

structure Config.Obeys (c : Config) (given : Settings) : Prop where
  files : ∀ v, given.files = some v → c.files = v
  folders : ∀ v, given.folders = some v → c.folders = v
  ignoreDecorators : ∀ v, given.ignoreDecorators = some v → c.ignoreDecorators = v
  propertyDecorators : ∀ v, given.propertyDecorators = some v → c.propertyDecorators = v

/-- A file is chosen with the values that the command line gives for it. -/
structure Selected.Obeys [Resources] (x : Selected) (given : Settings) : Prop where
  ignoreDecorators : ∀ v, given.ignoreDecorators = some v →
    Sieve.decoratorPattern v = .ok x.ignoreDecorators
  propertyDecorators : ∀ v, given.propertyDecorators = some v →
    x.propertyDecorators = Sieve.decoratorNames v

theorem Sieve.of_ofConfig [Resources] {c : Config} {here : Sieve} (h : Sieve.ofConfig c = .ok here) :
    Sieve.decoratorPattern c.ignoreDecorators = .ok here.ignoreDecorators ∧
      here.propertyDecorators = Sieve.decoratorNames c.propertyDecorators := by
  unfold Sieve.ofConfig at h
  cases hfiles : Sieve.wholePattern c.files with
  | error e =>
    rw [hfiles] at h
    cases h
  | ok files =>
    cases hfolders : Sieve.wholePattern c.folders with
    | error e =>
      rw [hfiles,hfolders] at h
      cases h
    | ok folders =>
      cases hignored : Sieve.decoratorPattern c.ignoreDecorators with
      | error e =>
        rw [hfiles,hfolders,hignored] at h
        cases h
      | ok ignored =>
        rw [hfiles,hfolders,hignored] at h
        cases h
        exact ⟨rfl,rfl⟩

namespace Lookup

variable {w : Workspace} {given : Settings} {o : Override} {run : RunOptions} {s s' s₀ : Session}
  {before total : List Text} {location place : Text} {c : Config} {x : Selected}

theorem overridden_once {file : Text} {l : Ledger} (h : (once w given o file l).map Prod.fst = .ok c) :
    overriddenBy o c = c := by
  cases ho : once w given o file l with
  | error e =>
    rw [ho] at h
    cases h
  | ok found =>
    obtain ⟨c',l'⟩ := found
    rw [ho] at h
    cases h
    obtain ⟨-,own,st,-,-,rfl,-⟩ := exists_of_once ho
    exact overriddenBy_overriddenBy o _

theorem Course.overridden (hb : Begun given o run {} s₀) (h : Course w s₀ before s)
    (hc : config w location s = .ok c s') : overriddenBy o c = c := by
  cases hf : run.config with
  | none =>
    obtain ⟨r,s₁,hg,-,hl⟩ := config_looked (w := w) (h.settled hb) hf location
    obtain ⟨rfl,-⟩ := hg.of_ok hc
    exact hl.overridden
  | some file =>
    obtain ⟨s₁,hg,-⟩ := (h.once hb hf).config hf location
    exact overridden_once (hg.of_ok hc).1

theorem Begun.obeys (hb : Begun given o run {} s₀) (hc : overriddenBy o c = c) : c.Obeys given := by
  constructor <;> intro v hv <;> rw [← hc]
  · simp [overriddenBy,hb.files,hv]
  · simp [overriddenBy,hb.folders,hv]
  · simp [overriddenBy,hb.ignoreDecorators,hv]
  · simp [overriddenBy,hb.propertyDecorators,hv]

/-! ### The codes of the command line -/

theorem Course.codes_override {turn : Nat} (hb : Begun given o run {} s₀)
    (ho : o.codes = some (.commandLine turn))
    (hc : given.adjust (s₀.ledger.codes (.commandLine turn)) = s₀.ledger.codes (.commandLine turn))
    (h : Course w s₀ before s) :
    s.ledger.codes (.commandLine turn) = s₀.ledger.codes (.commandLine turn) := by
  cases hf : run.config with
  | none => exact (h.reached hb hf).2.codes_override ho (by simp) (by simp) hc
  | some file =>
    rcases (h.once hb hf).state with ⟨-,hl⟩ | ⟨c,honce,-⟩
    · rw [hl]
    · have hover := overridden_once (congrArg (Except.map Prod.fst) honce)
      obtain ⟨-,own,st,-,-,-,hl⟩ := exists_of_once honce
      rw [hl,codes_of_overridden ho hover]
      cases st <;> simp [Ledger.make,Start.list,hc]

/-- Codes that the command line names to start from are in its list, with its last word behind them. -/
theorem Begun.base (hb : Begun given o run {} s₀) : ∃ base, given.base = .ok base ∧
    base.isSome = given.isExclusive ∧ ∀ codes, base = some codes → o.codes = some (.commandLine 0) ∧
      s₀.ledger.codes (.commandLine 0) = given.adjust codes.has := by
  cases hx : given.isExclusive with
  | false =>
    refine ⟨none,?_,rfl,by simp⟩
    rw [Settings.base_eq,start_of_not_exclusive hx]
    rfl
  | true =>
    obtain ⟨st,codes,hs,hn,hc⟩ := hb.listed.codes hx
    refine ⟨some codes,?_,rfl,?_⟩
    · rw [Settings.base_eq,hs]
      cases st with
      | standard => cases hn
      | copied => exact congrArg Except.ok hn
      | given codes' => exact congrArg Except.ok hn
    · rintro _ ⟨⟩
      exact ⟨hb.listed.origin.trans (if_pos hx),hc⟩

theorem Course.codes {codes : CodeSet} (hb : Begun given o run {} s₀)
    (ho : o.codes = some (.commandLine 0))
    (hbase : s₀.ledger.codes (.commandLine 0) = given.adjust codes.has) (h : Course w s₀ before s)
    (hc : config w location s = .ok c s') : (s'.codesAt c.codes).has = given.adjust codes.has := by
  have hclosed : given.adjust (s₀.ledger.codes (.commandLine 0)) = s₀.ledger.codes (.commandLine 0) := by
    rw [hbase,Settings.adjust_adjust]
  have hafter : Course w s₀ (before ++ [location]) s' := h.look (r := .ok c) hc
  have hlist := hafter.codes_override hb ho hclosed
  rw [codes_of_overridden ho (h.overridden hb hc)]
  exact hlist.trans hbase

/-! ### Chosen files -/

theorem exists_of_sieve [Resources] {here : Sieve} {codes : CodeSet} (h : sieve w location s = .ok (here, codes) s') :
    ∃ c, config w (w.files.absolute location) s = .ok c s' ∧ Sieve.ofConfig c = .ok here ∧
      codes = s'.codesAt c.codes := by
  obtain ⟨c,s₁,hc,h⟩ := exists_of_bind h
  cases hx : Sieve.ofConfig c with
  | error e =>
    simp only [hx] at h
    cases h
  | ok here' =>
    simp only [hx] at h
    cases h
    exact ⟨c,hc,hx,rfl⟩

/-- A file that is picked has what is said in a configuration that is given in the course of the run. -/
theorem Picked.config [Resources] (h : Picked w s₀ total location place x) :
    ∃ before s c s', Course w s₀ before s ∧ config w (w.files.absolute location) s = .ok c s' ∧
      x.codes = s'.codesAt c.codes ∧ Sieve.decoratorPattern c.ignoreDecorators = .ok x.ignoreDecorators ∧
      x.propertyDecorators = Sieve.decoratorNames c.propertyDecorators := by
  obtain ⟨before,s,s',here,codes,-,hs,hsieve,-,rfl⟩ := h
  obtain ⟨c,hc,hx,rfl⟩ := exists_of_sieve hsieve
  obtain ⟨hignored,hproperty⟩ := Sieve.of_ofConfig hx
  exact ⟨before,s,c,s',hs,hc,rfl,hignored,hproperty⟩

/-- The command line wins. Whatever is looked up and in whatever order, each configuration has the values
that the command line gives and, if it names codes to start from, these codes with what it adds and
without what it takes away; and so have all files that are chosen, even if the run fails. -/
theorem commandLine_wins [Resources] {words : List Text} (hstart : Session.start words {} = .ok o s₀)
    (hgiven : s₀.settings = some given) :
    ∃ base, given.base = .ok base ∧ base.isSome = given.isExclusive ∧
      (∀ before s location c s', Course w s₀ before s → config w location s = .ok c s' →
        (∀ codes, base = some codes → (s'.codesAt c.codes).has = given.adjust codes.has) ∧
          c.Obeys given) ∧
      ∀ r s, Gives (chooseFiles w) s₀ r s → ∀ x ∈ s.chosen,
        (∀ codes, base = some codes → x.codes.has = given.adjust codes.has) ∧ x.Obeys given := by
  obtain ⟨given',run,hb⟩ := start_ok hstart
  obtain rfl : given' = given := Option.some.inj (hb.settled.settings.symm.trans hgiven)
  obtain ⟨base,hbase,hsome,hlist⟩ := hb.base
  have hconfig : ∀ before s location c s', Course w s₀ before s → config w location s = .ok c s' →
      (∀ codes, base = some codes → (s'.codesAt c.codes).has = given'.adjust codes.has) ∧
        c.Obeys given' := by
    intro before s location c s' h hc
    refine ⟨fun codes hcodes => ?_,hb.obeys (h.overridden hb hc)⟩
    obtain ⟨ho,hl⟩ := hlist codes hcodes
    exact h.codes hb ho hl hc
  refine ⟨base,hbase,hsome,hconfig,fun r s hg x hx => ?_⟩
  obtain ⟨targets,r',s',total,-,hg',-,hpicked,-⟩ := chooseFiles_walks (w := w) hb
  obtain ⟨rfl,rfl⟩ := hg.unique hg'
  obtain ⟨location,place,hpick⟩ := hpicked x hx
  obtain ⟨before,t,c,t',ht,hc,hcodes,hignored,hproperty⟩ := hpick.config
  obtain ⟨hall,hobeys⟩ := hconfig before t _ c t' ht hc
  refine ⟨fun codes h => by rw [hcodes,hall codes h],fun v hv => ?_,fun v hv => ?_⟩
  · rw [← hobeys.ignoreDecorators v hv,hignored]
  · rw [← hobeys.propertyDecorators v hv,hproperty]

/-- A command line that names a code to start from and takes files whatever a folder says. -/
def commanding : List Text := Text.literals ["--select=D203","--match=.*","--add-select=D1","p"]

open Resources.Builtin

theorem commandLine_wins_grove : ∃ o s₀ given base s, Session.start commanding {} = .ok o s₀ ∧
    s₀.settings = some given ∧ given.base = .ok (some base) ∧ chooseFiles grove s₀ = .ok () s ∧
    s.chosen.length = 5 ∧ ∀ x ∈ s.chosen, x.codes.has = given.adjust base.has ∧ x.Obeys given := by
  obtain ⟨o,s₀,hstart,hs₀⟩ := @exists_of_opens commanding (fun s₀ => s₀.settings.any (·.isExclusive) &&
    match chooseFiles grove s₀ with
    | .ok _ s => s.chosen.length == 5
    | .error _ _ => false) (by decide +kernel)
  simp only [Bool.and_eq_true,Option.any_eq_true] at hs₀
  obtain ⟨⟨given,hgiven,hx⟩,hrun⟩ := hs₀
  obtain ⟨base,hbase,hsome,-,hfiles⟩ := commandLine_wins (w := grove) hstart hgiven
  obtain ⟨codes,rfl⟩ := Option.isSome_iff_exists.1 (hsome.trans hx)
  cases hchoose : chooseFiles grove s₀ with
  | error e s => simp [hchoose] at hrun
  | ok _ s =>
    simp only [hchoose,beq_iff_eq] at hrun
    refine ⟨o,s₀,given,codes,s,hstart,hgiven,hbase,hchoose,hrun,fun x hx => ?_⟩
    obtain ⟨hcodes,hobeys⟩ := hfiles (.ok ()) s hchoose x hx
    exact ⟨hcodes codes rfl,hobeys⟩

end Lookup

end DocLint
