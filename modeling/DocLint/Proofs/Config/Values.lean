import DocLint.Proofs.Config.Course
import DocLint.Proofs.Config.Inheritance

/-!
Values of a configuration besides its codes. The command line and a file without files above it count with
what they give; a file that is merged with the configuration above it counts with what it gives only if that
is not empty, so an empty value that is given there is passed over.
-/

set_option autoImplicit false

namespace DocLint

open Toml (Value)

inductive ValueKey where
  | files | folders | ignoreDecorators | propertyDecorators
  deriving DecidableEq, Repr

def ValueKey.default : ValueKey → Value
  | .files => .text defaultFiles
  | .folders => .text defaultFolders
  | .ignoreDecorators => .text defaultIgnoredDecorators
  | .propertyDecorators => .text defaultPropertyDecorators

def Settings.value (s : Settings) : ValueKey → Option Value
  | .files => s.files
  | .folders => s.folders
  | .ignoreDecorators => s.ignoreDecorators
  | .propertyDecorators => s.propertyDecorators

def Override.value (o : Override) : ValueKey → Option Value
  | .files => o.files
  | .folders => o.folders
  | .ignoreDecorators => o.ignoreDecorators
  | .propertyDecorators => o.propertyDecorators

def Config.value (c : Config) : ValueKey → Value
  | .files => c.files
  | .folders => c.folders
  | .ignoreDecorators => c.ignoreDecorators
  | .propertyDecorators => c.propertyDecorators

/-! ### One configuration from another -/

namespace Lookup

variable {origin : Origin} {above c : Config} {own given : Settings} {o : Override} {k : ValueKey} {v : Value}
  {s s' : Session}

theorem value_created (codes : Origin) (own : Settings) (k : ValueKey) :
    (created codes own).value k = (own.value k).getD k.default := by cases k <;> rfl

theorem value_merged (codes : Origin) (above : Config) (own : Settings) (k : ValueKey) :
    (merged codes above own).value k = prefer (own.value k) (above.value k) := by cases k <;> rfl

theorem value_overriddenBy (o : Override) (c : Config) (k : ValueKey) :
    (overriddenBy o c).value k = (o.value k).getD (c.value k) := by cases k <;> rfl

theorem prefer_eq (own : Option Value) (above : Value) :
    prefer own above = (own.filter Value.isGiven).getD above := by
  cases own with
  | none => rfl
  | some v => cases h : v.isGiven <;> simp [prefer,Option.filter,h]

/-- A value that is given counts, unless it is empty and another than the one above. -/
theorem prefer_eq_getD_iff (own : Option Value) (above : Value) :
    prefer own above = own.getD above ↔ ∀ v, own = some v → v.isGiven = false → above = v := by
  cases own with
  | none => simp [prefer]
  | some v => cases h : v.isGiven <;> simp [prefer,h]

theorem prefer_text (t : Text) (above : Value) :
    prefer (some (.text t)) above = if t = [] then above else .text t := by
  cases t <;> rfl

structure MergedValue (own : Settings) (above c : Config) (k : ValueKey) : Prop where
  filled : c.value k = ((own.value k).filter Value.isGiven).getD (above.value k)
  text : ∀ t, own.value k = some (.text t) → c.value k = if t = [] then above.value k else .text t
  /-- What the settings give counts, unless it is empty and another than the value above. -/
  specified : c.value k = (own.value k).getD (above.value k) ↔
    ∀ v, own.value k = some v → v.isGiven = false → above.value k = v

theorem mergedValue (origin : Origin) (above : Config) (own : Settings) (k : ValueKey) :
    MergedValue own above (merged origin above own) k := by
  refine ⟨?_,fun t ht => ?_,?_⟩
  · rw [value_merged,prefer_eq]
  · rw [value_merged,ht,prefer_text]
  · rw [value_merged]
    exact prefer_eq_getD_iff _ _

/-- Settings can be merged if it can be told what their codes start from. -/
theorem merge_gives (origin : Origin) (above : Config) (own : Settings) (s : Session) :
    ∃ s', Gives (merge origin above own) s (own.start.map fun _ => merged origin above own) s' := by
  cases hs : own.start with
  | error e => exact ⟨s,bind_error (startingCodes_error hs)⟩
  | ok st => exact ⟨_,(bind_ok (startingCodes_ok hs)).trans rfl⟩

theorem create_gives (origin : Origin) (own : Settings) (s : Session) :
    ∃ codes s', Gives (create origin own) s (own.start.map fun _ => created codes own) s' := by
  cases hs : own.start with
  | error e => exact ⟨origin,s,bind_error (bind_error (startingCodes_error hs))⟩
  | ok st =>
    have hmade : ∃ codes s', makeCodes origin own s = .ok codes s' := by
      unfold makeCodes
      rw [bind_ok (startingCodes_ok hs)]
      cases s.newCodes st with
      | none => exact ⟨_,_,rfl⟩
      | some codes => exact ⟨_,_,rfl⟩
    obtain ⟨codes,s',hmade⟩ := hmade
    exact ⟨codes,s',bind_ok hmade⟩

end Lookup

/-! ### Along the folders -/

namespace Lineage

variable {l : Lineage} {own : Settings} {k : ValueKey}

/-- The value of the innermost file, of those below the topmost one, that gives one which is not empty. Where
there is none, that of the topmost file counts, empty or not. -/
def value (l : Lineage) (k : ValueKey) : Value :=
  ((l.below.reverse.findSome? fun own => (own.value k).filter Value.isGiven).or
    (l.top.bind fun own => own.value k)).getD k.default

def specified (l : Lineage) (k : ValueKey) : Value :=
  ((l.below.reverse.findSome? fun own => own.value k).or (l.top.bind fun own => own.value k)).getD k.default

theorem value_extend (l : Lineage) (own : Settings) (k : ValueKey) :
    (l.extend own).value k = Lookup.prefer (own.value k) (l.value k) := by
  rw [Lookup.prefer_eq,value,extend,List.reverse_append,List.reverse_singleton,List.singleton_append,
    List.findSome?_cons]
  cases (own.value k).filter Value.isGiven with
  | none => rfl
  | some v => rfl

theorem value_top (own : Settings) (k : ValueKey) :
    value { top := some own } k = (own.value k).getD k.default := rfl

theorem value_eq_specified (h : ∀ own ∈ l.below, ∀ v, own.value k = some v → v.isGiven = true) :
    l.value k = l.specified k := by
  have hfilter : ∀ own ∈ l.below, (own.value k).filter Value.isGiven = own.value k := by
    intro own hown
    cases hv : own.value k with
    | none => rfl
    | some v => simp [h own hown v hv]
  have hfind : (l.below.reverse.findSome? fun own => (own.value k).filter Value.isGiven) =
      l.below.reverse.findSome? fun own => own.value k := by
    generalize hbelow : l.below.reverse = below
    have hmem : ∀ own ∈ below, own ∈ l.below := fun own hown => by simpa [← hbelow] using hown
    clear hbelow
    induction below with
    | nil => rfl
    | cons own below ih =>
      rw [List.findSome?_cons,List.findSome?_cons,hfilter own (hmem own List.mem_cons_self),
        ih fun x hx => hmem x (List.mem_cons_of_mem own hx)]
  rw [value,specified,hfind]

end Lineage

namespace Lookup

variable {w : Workspace} {given : Settings} {o : Override} {run : RunOptions} {l l' : Ledger}
  {s s' s₀ : Session} {before names : List Text} {location : Text} {c : Config} {k : ValueKey}
  {r : Except ConfigFault Config}

/-- A lookup gives the value of the command line, or else that of a line of files. -/
def Lined (o : Override) (k : ValueKey) (lineage : Except ConfigFault Lineage) : Except ConfigFault Config → Prop
  | .error _ => True
  | .ok c => ∃ lin, lineage = .ok lin ∧ c.value k = (o.value k).getD (lin.value k)

theorem Begun.value (hb : Begun given o run s s₀) (k : ValueKey) : o.value k = given.value k := by
  cases k with
  | files => exact hb.files
  | folders => exact hb.folders
  | ignoreDecorators => exact hb.ignoreDecorators
  | propertyDecorators => exact hb.propertyDecorators

/-- Settings that have nothing above them, be they those of a file or of the command line. -/
theorem value_fresh {lin : Lineage} {own : Settings} {codes : Origin} (ho : o.value k = given.value k)
    (hlin : own = given ∧ lin = {} ∨ lin = { top := some own }) :
    (overriddenBy o (created codes own)).value k = (o.value k).getD (lin.value k) := by
  rw [value_overriddenBy,value_created]
  rcases hlin with ⟨rfl,rfl⟩ | rfl
  · rw [ho]
    cases own.value k with
    | none => rfl
    | some v => rfl
  · rw [Lineage.value_top]

theorem Looked.lined (ho : o.value k = given.value k) (h₀ : ∀ folder, l.known folder = none)
    (h : Looked w given o l names r l') : Lined o k (lineage w (folders w names)) r := by
  induction h with
  | known hk => simp [h₀] at hk
  | unread hk hp => trivial
  | refused hk hp hs => trivial
  | stopped hk hp hb ha ih => trivial
  | unmerged hk hp ha hs ih => trivial
  | borrowed hk hp ha ih =>
    rw [lineage_borrowed hp]
    obtain ⟨lin,hlin,hc⟩ := ih
    refine ⟨lin,hlin,?_⟩
    rw [value_overriddenBy,hc]
    cases o.value k <;> rfl
  | fresh hk hp hs =>
    rcases lineage_fresh hp with ⟨rfl,hlin⟩ | hlin
    · exact ⟨_,hlin,value_fresh ho (.inl ⟨rfl,rfl⟩)⟩
    · exact ⟨_,hlin,value_fresh ho (.inr rfl)⟩
  | @merged l' names own a st hk hp ha hs ih =>
    obtain ⟨lin,hlin,hc⟩ := ih
    refine ⟨lin.extend own,?_,?_⟩
    · rw [lineage_merged hp,hlin]
      rfl
    · rw [value_overriddenBy,value_merged,hc,Lineage.value_extend]
      cases o.value k <;> rfl

theorem once_lined (file : Text) (ho : o.value k = given.value k) :
    Lined o k (only w file) ((once w given o file l).map Prod.fst) := by
  cases honce : once w given o file l with
  | error e => trivial
  | ok found =>
    obtain ⟨c,l'⟩ := found
    obtain ⟨-,own,st,hnamed,-,rfl,-⟩ := exists_of_once honce
    unfold named at hnamed
    unfold only
    cases hsettings : (Config.settingsIn w file).run [] with
    | error e log =>
      simp only [hsettings] at hnamed
      cases hnamed
    | ok found log =>
      obtain ⟨found,inherits⟩ := found
      simp only [hsettings,Except.ok.injEq] at hnamed
      subst hnamed
      refine ⟨_,rfl,value_fresh ho ?_⟩
      cases found with
      | none => exact .inl ⟨rfl,rfl⟩
      | some own => exact .inr rfl

/-- At any time of a run, a value is that of the command line, or else that of the line of files. -/
theorem Course.lined (hb : Begun given o run {} s₀) (h : Course w s₀ before s)
    (hc : config w location s = .ok c s') :
    ∃ lin, Lookup.reached w run location = .ok lin ∧ c.value k = (given.value k).getD (lin.value k) := by
  rw [← hb.value]
  unfold Lookup.reached
  cases hf : run.config with
  | none =>
    have h₀ : ∀ folder, s₀.ledger.known folder = none := fun folder => by simp [Session.ledger,hb.known]
    obtain ⟨r,s₁,hg,-,hl⟩ := config_looked (w := w) hb.settled hf location
    obtain rfl : Except.ok c = r := h.same hb (r := .ok c) hc hg
    exact hl.lined (hb.value k) h₀
  | some file =>
    obtain ⟨s₁,hg,-⟩ := (h.once hb hf).config hf location
    obtain ⟨honce,-⟩ := hg.of_ok hc
    have hlined := once_lined (w := w) (l := s₀.ledger) file (hb.value k)
    rw [honce] at hlined
    simp only
    rw [if_pos]
    · exact hlined
    · cases hx : Lookup.once w given o file s₀.ledger with
      | error e =>
        rw [hx] at honce
        cases honce
      | ok found => exact (exists_of_once hx).1

/-- Which value counts. Where settings are merged with the configuration above, what they give counts unless
it is empty; where they have nothing above them, and on the command line, it counts in any case. So at any
time of a run, a location has the value of the command line, or else that of the innermost file that gives
one which is not empty, up to the topmost file, of which an empty value counts too. That is what the innermost
file gives that gives anything, if no file below the topmost one gives an empty value. -/
theorem filled_value_wins (w : Workspace) (k : ValueKey) :
    (∀ origin above own s, ∃ s', Gives (merge origin above own) s
      (own.start.map fun _ => merged origin above own) s' ∧
        MergedValue own above (merged origin above own) k) ∧
    (∀ origin own s, ∃ codes s', Gives (create origin own) s (own.start.map fun _ => created codes own) s' ∧
      (created codes own).value k = (own.value k).getD k.default) ∧
    (∀ words o s₀ given run, Session.start words {} = .ok o s₀ → s₀.settings = some given →
      s₀.run = some run → (∀ c, (overriddenBy o c).value k = (given.value k).getD (c.value k)) ∧
      ∀ before s location c s', Course w s₀ before s → config w location s = .ok c s' →
        ∃ lin, reached w run location = .ok lin ∧ c.value k = (given.value k).getD (lin.value k) ∧
          ((∀ own ∈ lin.below, ∀ v, own.value k = some v → v.isGiven = true) →
            c.value k = (given.value k).getD (lin.specified k))) := by
  refine ⟨fun origin above own s => ?_,fun origin own s => ?_,fun words o s₀ given run hstart hgiven hrun => ?_⟩
  · obtain ⟨s',hmerge⟩ := merge_gives origin above own s
    exact ⟨s',hmerge,mergedValue origin above own k⟩
  · obtain ⟨codes,s',hcreate⟩ := create_gives origin own s
    exact ⟨codes,s',hcreate,value_created codes own k⟩
  · obtain ⟨given',run',hb⟩ := start_ok hstart
    obtain rfl : given' = given := Option.some.inj (hb.settled.settings.symm.trans hgiven)
    obtain rfl : run' = run := Option.some.inj (hb.settled.run.symm.trans hrun)
    refine ⟨fun c => by rw [value_overriddenBy,hb.value],fun before s location c s' h hc => ?_⟩
    obtain ⟨lin,hlin,hvalue⟩ := h.lined hb hc (k := k)
    exact ⟨lin,hlin,hvalue,fun hfilled => by rw [hvalue,Lineage.value_eq_specified hfilled]⟩

/-- A folder whose file gives an empty pattern for files, in a folder whose file gives another one. -/
def emptied : Workspace where
  files :=
    { root := .folder "b" (.file "setup.cfg" ("[pydocstyle]\nmatch=\n".toList.map fun c => c.toNat.toUInt8) .empty)
        (.file "setup.cfg" ("[pydocstyle]\nmatch=a.*\n".toList.map fun c => c.toNat.toUInt8) .empty)
      working := [] }

def finds (w : Workspace) (location : Text) (p : Config → Bool) (s : Session) : Bool :=
  match config w location s with
  | .ok c _ => p c
  | .error _ _ => false

theorem exists_of_finds {p : Config → Bool} (h : finds w location p s = true) :
    ∃ c s', config w location s = .ok c s' ∧ p c = true := by
  unfold finds at h
  split at h
  · rename_i c s' hc
    exact ⟨c,s',hc,h⟩
  · cases h

theorem emptied_looked : ∃ o s₀ given lin c s', Session.start [] {} = .ok o s₀ ∧ s₀.settings = some given ∧
    s₀.run = some {} ∧ given.value .files = none ∧ config emptied "/b" s₀ = .ok c s' ∧
    reached emptied {} "/b" = .ok lin ∧ (lin.specified .files).isGiven = false ∧
    (c.value .files).isGiven = true := by
  obtain ⟨o,s₀,hstart,hs₀⟩ := @exists_of_opens [] (fun s₀ =>
    s₀.settings.any (fun given => (given.value .files).isNone) && s₀.run == some {} &&
      finds emptied "/b" (fun c => (c.value .files).isGiven) s₀ &&
      (reached emptied {} "/b").toOption.any fun lin => !(lin.specified .files).isGiven) (by decide +kernel)
  simp only [Bool.and_eq_true,Option.any_eq_true,Option.isNone_iff_eq_none,beq_iff_eq] at hs₀
  obtain ⟨⟨⟨⟨given,hgiven,hnone⟩,hrun⟩,hconfig⟩,lin,hlin,hspecified⟩ := hs₀
  obtain ⟨c,s',hc,hfilled⟩ := exists_of_finds hconfig
  cases hreached : reached emptied {} "/b" with
  | error e =>
    rw [hreached] at hlin
    cases hlin
  | ok lin' =>
    rw [hreached] at hlin
    cases hlin
    exact ⟨o,s₀,given,lin,c,s',hstart,hgiven,hrun,hnone,hc,rfl,by simpa using hspecified,hfilled⟩

theorem filled_value_wins_emptied : ∃ o s₀ given lin c s', Session.start [] {} = .ok o s₀ ∧
    s₀.settings = some given ∧ s₀.run = some {} ∧ config emptied "/b" s₀ = .ok c s' ∧
    reached emptied {} "/b" = .ok lin ∧ c.value .files = (given.value .files).getD (lin.value .files) := by
  obtain ⟨o,s₀,given,lin,c,s',hstart,hgiven,hrun,-,hc,hlin,-,-⟩ := emptied_looked
  obtain ⟨-,-,hwins⟩ := filled_value_wins emptied .files
  obtain ⟨lin',hlin',hvalue,-⟩ := (hwins [] o s₀ given {} hstart hgiven hrun).2 [] s₀ "/b" c s' .start hc
  obtain rfl : lin = lin' := Except.ok.inj (hlin.symm.trans hlin')
  exact ⟨o,s₀,given,lin,c,s',hstart,hgiven,hrun,hc,hlin,hvalue⟩

/-- An empty pattern that a file gives is passed over for the one of the folder above. -/
theorem emptyFiles_passed_over :
    (¬∀ origin above own, (merged origin above own).value .files = (own.value .files).getD (above.value .files)) ∧
    ∃ o s₀ given lin c s', Session.start [] {} = .ok o s₀ ∧ s₀.settings = some given ∧ s₀.run = some {} ∧
      config emptied "/b" s₀ = .ok c s' ∧ reached emptied {} "/b" = .ok lin ∧
      c.value .files ≠ (given.value .files).getD (lin.specified .files) := by
  constructor
  · intro h
    have hempty := h .namedFile (created .standard {}) { files := some (.text []) }
    exact absurd (congrArg Value.isGiven hempty) (by decide)
  · obtain ⟨o,s₀,given,lin,c,s',hstart,hgiven,hrun,hnone,hc,hlin,hspecified,hfilled⟩ := emptied_looked
    refine ⟨o,s₀,given,lin,c,s',hstart,hgiven,hrun,hc,hlin,fun heq => ?_⟩
    rw [hnone,Option.getD_none] at heq
    rw [heq,hspecified] at hfilled
    cases hfilled

end Lookup

end DocLint
