import DocLint.Proofs.Config.Agreement
import DocLint.Proofs.Config.CommandLine
import DocLint.Proofs.Text.Opening

/-!
Ways to choose codes that exclude each other. Codes are left out, or selected, or taken from a convention.
Settings with two of these are refused if both say something; one that is given and says nothing passes, and
it may decide in place of the other.
-/

set_option autoImplicit false

namespace DocLint

open Toml (Value)

/-- The ways to choose the codes to start from, in the order in which they are asked for. -/
inductive Base where
  | ignore | select | convention
  deriving DecidableEq, Repr

namespace Base

def key : Base → SettingKey
  | .ignore => .ignore
  | .select => .select
  | .convention => .convention

def earlier : Base → List Base
  | .ignore => []
  | .select => [.ignore]
  | .convention => [.ignore, .select]

end Base

namespace Settings

variable {s : Settings} {a b : Base}

def gives (s : Settings) : Base → Bool
  | .ignore => s.ignore.isSome
  | .select => s.select.isSome
  | .convention => s.convention.isSome

def fills (s : Settings) : Base → Bool
  | .ignore => givesCodes s.ignore
  | .select => givesCodes s.select
  | .convention => givesValue s.convention

/-- The codes that a way stands for, where the standard list holds some codes. -/
def chosen (s : Settings) (standard : CodeSet) : Base → Option CodeSet
  | .ignore => s.ignore.map CodeSet.all.without
  | .select => s.select
  | .convention =>
    match s.convention with
    | some (.text name) => (Convention.ofName? name).map fun c => if c = .pep257 then standard else c.codes
    | _ => none

def NamesConvention (s : Settings) : Prop :=
  ∃ name c, s.convention = some (.text name) ∧ Convention.ofName? name = some c

/-- Of several ways that are given none is accepted, and a single one decides. -/
structure Excludes (s : Settings) : Prop where
  refused : ∀ a b, a ≠ b → s.gives a = true → s.gives b = true → s.validate ≠ .ok ()
  decided : s.validate = .ok () → ∀ b, s.gives b = true → ∀ x : Session,
    ∃ codes, s.chosen (x.codesAt .standard) b = some codes ∧ x.startingCodes s = .ok (some codes)

theorem validate_exclusive (hne : a ≠ b) (ha : s.fills a = true) (hb : s.fills b = true) :
    ∃ a b : Base, a ≠ b ∧ s.fills a = true ∧ s.fills b = true ∧
      s.validate = .error (.exclusive a.key.name b.key.name) := by
  have hpairs : s.validate =
      if s.fills .ignore && s.fills .select then .error (.exclusive Base.ignore.key.name Base.select.key.name)
      else if s.fills .ignore && s.fills .convention then
        .error (.exclusive Base.ignore.key.name Base.convention.key.name)
      else if s.fills .select && s.fills .convention then
        .error (.exclusive Base.select.key.name Base.convention.key.name)
      else _ := rfl
  cases hi : s.fills .ignore with
  | true =>
    cases hs : s.fills .select with
    | true => exact ⟨.ignore,.select,by decide,hi,hs,by rw [hpairs,hi,hs]; rfl⟩
    | false =>
      have hc : s.fills .convention = true := by cases a <;> cases b <;> simp_all
      exact ⟨.ignore,.convention,by decide,hi,hc,by rw [hpairs,hi,hs,hc]; rfl⟩
  | false =>
    obtain ⟨hs,hc⟩ : s.fills .select = true ∧ s.fills .convention = true := by cases a <;> cases b <;> simp_all
    exact ⟨.select,.convention,by decide,hs,hc,by rw [hpairs,hi,hs,hc]; rfl⟩

theorem validate_alone (h : ∀ a b, s.fills a = true → s.fills b = true → a = b) :
    s.validate = .ok () ↔ (s.fills .convention = true → s.NamesConvention) := by
  have hpair {a b : Base} (hne : a ≠ b) : (s.fills a && s.fills b) = false := by
    cases ha : s.fills a <;> cases hb : s.fills b <;> simp
    exact hne (h a b ha hb)
  have his := hpair (a := .ignore) (b := .select) (by decide)
  have hic := hpair (a := .ignore) (b := .convention) (by decide)
  have hsc := hpair (a := .select) (b := .convention) (by decide)
  simp only [fills] at his hic hsc
  simp only [validate,his,hic,hsc,Bool.false_eq_true,if_false,fills,NamesConvention]
  cases hc : s.convention with
  | none => simp [givesValue]
  | some v =>
    cases hv : v.isGiven with
    | false => simp [givesValue,hv]
    | true => cases v <;> simp [givesValue,hv,Option.isSome_iff_exists]

theorem validate_eq_ok_iff : s.validate = .ok () ↔
    (∀ a b, s.fills a = true → s.fills b = true → a = b) ∧ (s.fills .convention = true → s.NamesConvention) := by
  constructor
  · intro hv
    have hone : ∀ a b, s.fills a = true → s.fills b = true → a = b := by
      intro a b ha hb
      by_cases hne : a = b
      · exact hne
      · obtain ⟨_,_,-,-,-,he⟩ := validate_exclusive hne ha hb
        cases hv.symm.trans he
    exact ⟨hone,(validate_alone hone).mp hv⟩
  · rintro ⟨hone,hnames⟩
    exact (validate_alone hone).mpr hnames

theorem startingCodes_of_first (x : Session) (h : s.gives b = true) (hfirst : ∀ a ∈ b.earlier, s.gives a = false)
    (codes : Option CodeSet) :
    x.startingCodes s = .ok codes ↔ codes ≠ none ∧ s.chosen (x.codesAt .standard) b = codes := by
  unfold Session.startingCodes
  cases b with
  | ignore =>
    cases hi : s.ignore with
    | none => simp [gives,hi] at h
    | some ignored => cases codes <;> simp [start,hi,chosen,Except.map,Session.newCodes]
  | select =>
    have hi : s.ignore = none := by simpa [gives] using hfirst .ignore (by simp [Base.earlier])
    cases hs : s.select with
    | none => simp [gives,hs] at h
    | some selected => cases codes <;> simp [start,hi,hs,chosen,Except.map,Session.newCodes]
  | convention =>
    have hi : s.ignore = none := by simpa [gives] using hfirst .ignore (by simp [Base.earlier])
    have hs : s.select = none := by simpa [gives] using hfirst .select (by simp [Base.earlier])
    cases hc : s.convention with
    | none => simp [gives,hc] at h
    | some v =>
      cases v with
      | text name =>
        cases hname : Convention.ofName? name with
        | none => cases codes <;> simp [start,hi,hs,hc,hname,chosen,Except.map]
        | some c => cases c <;> cases codes <;> simp [start,hi,hs,hc,hname,chosen,Except.map,Session.newCodes]
      | _ => cases codes <;> simp [start,hi,hs,hc,chosen,Except.map]

/-- A way that is given stands for codes, unless it is a convention without a known name. -/
theorem exists_chosen (hv : s.validate = .ok ()) (hb : s.gives b = true)
    (h : b = .convention → s.fills .convention = true) (standard : CodeSet) :
    ∃ codes, s.chosen standard b = some codes := by
  cases b with
  | ignore =>
    obtain ⟨ignored,hi⟩ := Option.isSome_iff_exists.mp hb
    exact ⟨_,by rw [chosen,hi]; rfl⟩
  | select => exact Option.isSome_iff_exists.mp hb
  | convention =>
    obtain ⟨name,c,hname,hknown⟩ := (validate_eq_ok_iff.mp hv).2 (h rfl)
    exact ⟨_,by simp only [chosen,hname,hknown]; rfl⟩

theorem excludes_iff : s.Excludes ↔ (s.validate = .ok () →
    (∀ a b, s.gives a = true → s.gives b = true → a = b) ∧ (s.gives .convention = true → s.fills .convention = true)) := by
  constructor
  · intro h hv
    refine ⟨fun a b ha hb => ?_,fun hc => ?_⟩
    · by_cases hne : a = b
      · exact hne
      · exact absurd hv (h.refused a b hne ha hb)
    · obtain ⟨codes,hcodes,-⟩ := h.decided hv .convention hc {}
      cases hvalue : s.convention with
      | none => simp [gives,hvalue] at hc
      | some v =>
        cases v with
        | text name =>
          cases name with
          | nil => simp [chosen,hvalue,show Convention.ofName? [] = none by decide] at hcodes
          | cons c cs => simp [fills,givesValue,hvalue,Value.isGiven]
        | _ => simp [chosen,hvalue] at hcodes
  · intro h
    refine ⟨fun a b hne ha hb hv => hne ((h hv).1 a b ha hb),fun hv b hb x => ?_⟩
    obtain ⟨hone,hfills⟩ := h hv
    have hfirst : ∀ a ∈ b.earlier, s.gives a = false := by
      intro a ha
      rw [Bool.eq_false_iff]
      intro hgiven
      obtain rfl := hone a b hgiven hb
      cases a <;> simp [Base.earlier] at ha
    obtain ⟨codes,hcodes⟩ := exists_chosen hv hb (fun e => hfills (e ▸ hb)) (x.codesAt .standard)
    exact ⟨codes,hcodes,(startingCodes_of_first x hb hfirst _).mpr ⟨by simp,hcodes⟩⟩

end Settings

/-! ### Where settings come from -/

def NamesCode (v : Value) : Prop :=
  ∃ parts, codeParts v = .ok parts ∧ ∃ p ∈ parts, p.strip ≠ [] ∧ ∃ code ∈ CodeSet.all, p.strip <+: code

namespace GivenSettings

variable {g : GivenSettings} {s : Settings} {log log' : List LogLine}

def gives (g : GivenSettings) : Base → Bool
  | .ignore => g.ignore.isSome
  | .select => g.select.isSome
  | .convention => g.convention.isSome

def Fills (g : GivenSettings) : Base → Prop
  | .ignore => ∃ v, g.ignore = some v ∧ NamesCode v
  | .select => ∃ v, g.select = some v ∧ NamesCode v
  | .convention => ∃ v, g.convention = some v ∧ v.isGiven = true

/-- A list that is expanded holds the known codes that begin with one of its parts. -/
theorem mem_expand_strip {parts : List Text} {code : Text} :
    code ∈ CodeSet.expand (parts.map Text.strip).eraseDups ↔
      code ∈ CodeSet.all ∧ ∃ p ∈ parts, p.strip ≠ [] ∧ p.strip <+: code := by
  simp only [CodeSet.expand,CodeSet.fits,List.mem_filter,List.any_eq_true,List.mem_eraseDups,List.mem_map,
    Bool.and_eq_true,Bool.not_eq_true',List.isEmpty_eq_false_iff,List.isPrefixOf_iff_prefix]
  refine and_congr_right fun _ => ⟨?_,fun ⟨p,hp,hfits⟩ => ⟨p.strip,⟨p,hp,rfl⟩,by rwa [Text.strip_strip]⟩⟩
  rintro ⟨_,⟨p,hp,rfl⟩,hfits⟩
  exact ⟨p,hp,by rwa [Text.strip_strip] at hfits⟩

theorem codesOf_ne_nil {v : Value} {codes : CodeSet} {warnings : List LogLine}
    (h : codesOf v = .ok (codes, warnings)) : codes ≠ [] ↔ NamesCode v := by
  unfold codesOf at h
  cases hparts : codeParts v with
  | error e => simp [hparts,Except.map] at h
  | ok parts =>
    simp only [hparts,Except.map,Except.ok.injEq,Prod.mk.injEq] at h
    obtain ⟨rfl,-⟩ := h
    constructor
    · intro hne
      obtain ⟨code,hcode⟩ := List.exists_mem_of_ne_nil _ hne
      obtain ⟨hall,p,hp,hstrip,hbegins⟩ := mem_expand_strip.mp hcode
      exact ⟨parts,hparts,p,hp,hstrip,code,hall,hbegins⟩
    · rintro ⟨parts',hparts',p,hp,hstrip,code,hall,hbegins⟩
      cases hparts.symm.trans hparts'
      exact List.ne_nil_of_mem (mem_expand_strip.mpr ⟨hall,p,hp,hstrip,hbegins⟩)

theorem expandList_fills {o : Option Value} {codes : Option CodeSet} (h : expandList o log = .ok codes log') :
    codes.isSome = o.isSome ∧ (Settings.givesCodes codes = true ↔ ∃ v, o = some v ∧ NamesCode v) := by
  cases o with
  | none =>
    cases h
    simp [Settings.givesCodes]
  | some v =>
    unfold expandList at h
    cases hcodes : codesOf v with
    | error e =>
      simp only [hcodes] at h
      cases h
    | ok found =>
      obtain ⟨own,warnings⟩ := found
      simp only [hcodes] at h
      cases h
      have hne := codesOf_ne_nil hcodes
      cases own <;> simp_all [Settings.givesCodes]

theorem exists_of_bind {α β ε : Type} {x : Logged ε α} {f : α → Logged ε β} {y : β}
    (h : (x >>= f) log = .ok y log') : ∃ v log₁, x log = .ok v log₁ ∧ f v log₁ = .ok y log' := by
  change EStateM.bind x f log = _ at h
  simp only [EStateM.bind] at h
  split at h
  · rename_i v log₁ hx
    exact ⟨v,log₁,hx,h⟩
  · cases h

theorem expand_fills (h : Config.expandGiven g log = .ok s log') (b : Base) :
    s.gives b = g.gives b ∧ (s.fills b = true ↔ g.Fills b) := by
  have hexpand : g.expand log = .ok s log' := by
    unfold Config.expandGiven EStateM.run at h
    split at h
    · cases h
      assumption
    · cases h
  obtain ⟨ignore,log₁,hignore,hexpand⟩ := exists_of_bind hexpand
  obtain ⟨select,log₂,hselect,hexpand⟩ := exists_of_bind hexpand
  obtain ⟨addIgnore,log₃,-,hexpand⟩ := exists_of_bind hexpand
  obtain ⟨addSelect,log₄,-,hexpand⟩ := exists_of_bind hexpand
  cases hexpand
  cases b with
  | ignore => exact expandList_fills hignore
  | select => exact expandList_fills hselect
  | convention =>
    refine ⟨rfl,?_⟩
    cases hc : g.convention <;> simp [Settings.fills,Settings.givesValue,Fills,hc]

end GivenSettings

section Accepted

open GivenSettings (exists_of_bind)

variable {s : Settings} {w : Workspace} {location : Text} {inherits : Bool} {log log' : List LogLine}

theorem Config.valid_of_accept {message : Text} {u : Unit} (h : Config.accept s message log = .ok u log') :
    s.validate = .ok () := by
  by_cases hv : s.validate = .ok ()
  · exact hv
  · obtain ⟨fault,told,he⟩ := @Config.accept_invalid log s hv message
    cases he.symm.trans h

theorem Config.settingsIn_accepted (h : Config.settingsIn w location log = .ok (some s, inherits) log') :
    s.validate = .ok () ∧ ∃ g log₁ log₂, Config.expandGiven g log₁ = .ok s log₂ := by
  obtain ⟨source,_,-,h⟩ := exists_of_bind h
  cases source with
  | none => cases h
  | some source =>
    obtain ⟨name,_,-,h⟩ := exists_of_bind h
    cases name with
    | none => cases h
    | some name =>
      obtain ⟨options,_,-,h⟩ := exists_of_bind h
      obtain ⟨f,log₁,-,h⟩ := exists_of_bind h
      obtain ⟨settings,log₂,hexpand,h⟩ := exists_of_bind h
      obtain ⟨_,log₃,haccept,h⟩ := exists_of_bind h
      cases h
      exact ⟨Config.valid_of_accept haccept,_,_,_,hexpand⟩

theorem Session.takeUp_accepted {a : Arguments} {o : Override} {x x' : Session}
    (h : Session.takeUp a x = .ok o x') (hs : x'.settings = some s) :
    s.validate = .ok () ∧ ∃ lines, Config.expandGiven a.given [] = .ok s lines := by
  obtain ⟨given,lines,hexpand,hbegun⟩ := Lookup.takeUp_ok h
  cases hbegun.settled.settings.symm.trans hs
  obtain ⟨given,x₁,hgiven,h⟩ := Lookup.exists_of_bind h
  obtain ⟨_,hexpand',-⟩ := Lookup.exists_of_ofLogged hgiven
  cases hexpand.symm.trans hexpand'
  obtain ⟨_,x₂,-,h⟩ := Lookup.exists_of_bind h
  obtain ⟨_,x₃,haccept,-⟩ := Lookup.exists_of_bind h
  obtain ⟨_,haccept,-⟩ := Lookup.exists_of_ofLogged haccept
  exact ⟨Config.valid_of_accept haccept,lines,hexpand⟩

end Accepted

/-- What the settings of a session or of a file make of the ways to choose codes. -/
structure Settings.Exclusion (s : Settings) : Prop where
  refused : ∀ a b, a ≠ b → s.fills a = true → s.fills b = true →
    ∃ a b : Base, a ≠ b ∧ s.fills a = true ∧ s.fills b = true ∧
      s.validate = .error (.exclusive a.key.name b.key.name)
  accepted : s.validate = .ok () ↔
    (∀ a b, s.fills a = true → s.fills b = true → a = b) ∧ (s.fills .convention = true → s.NamesConvention)
  first : ∀ b, s.gives b = true → (∀ a ∈ b.earlier, s.gives a = false) → ∀ (x : Session) codes,
    x.startingCodes s = .ok codes ↔ codes ≠ none ∧ s.chosen (x.codesAt .standard) b = codes
  exclusive : s.Excludes ↔ (s.validate = .ok () → (∀ a b, s.gives a = true → s.gives b = true → a = b) ∧
    (s.gives .convention = true → s.fills .convention = true))

/-- Ways to choose codes exclude each other, as far as each of them says something. A list of codes says
something if one of its parts is the beginning of a code. All settings of files and command lines are
accepted before they are used. -/
theorem exclusive_options (s : Settings) : s.Exclusion ∧
    (∀ g log log', Config.expandGiven g log = .ok s log' →
      ∀ b, s.gives b = g.gives b ∧ (s.fills b = true ↔ g.Fills b)) ∧
    (∀ w location inherits log log', Config.settingsIn w location log = .ok (some s, inherits) log' →
      s.validate = .ok () ∧ ∃ g log₁ log₂, Config.expandGiven g log₁ = .ok s log₂) ∧
    (∀ a x o x', Session.takeUp a x = .ok o x' → x'.settings = some s →
      s.validate = .ok () ∧ ∃ lines, Config.expandGiven a.given [] = .ok s lines) := by
  refine ⟨?_,fun g log log' h b => GivenSettings.expand_fills h b,
    fun w location inherits log log' h => Config.settingsIn_accepted h,fun a x o x' h hs => Session.takeUp_accepted h hs⟩
  constructor
  case refused => exact fun a b hne ha hb => Settings.validate_exclusive hne ha hb
  case accepted => exact Settings.validate_eq_ok_iff
  case first => exact fun b hb hfirst x codes => Settings.startingCodes_of_first x hb hfirst codes
  case exclusive => exact Settings.excludes_iff

/-- A code is selected, and none is to be left out: all are checked. -/
theorem emptyIgnore_decides : ∃ o x s, Session.start ["--select=D100".toList, "--ignore=".toList] {} = .ok o x ∧
    x.settings = some s ∧ s.gives .ignore = true ∧ s.gives .select = true ∧ s.validate = .ok () ∧ ¬s.Excludes ∧
    x.codesAt (.commandLine 0) = CodeSet.all := by
  have hrun : Lookup.opens ["--select=D100".toList, "--ignore=".toList] (fun x =>
      x.settings.any (fun s => s.gives .ignore && s.gives .select && s.validate.isOk) &&
        x.codesAt (.commandLine 0) == CodeSet.all) = true := by
    decide +kernel
  obtain ⟨o,x,hstart,hx⟩ := Lookup.exists_of_opens hrun
  simp only [Bool.and_eq_true,beq_iff_eq] at hx
  obtain ⟨s,hs,hgiven⟩ := (Option.any_eq_true _ _).mp hx.1
  simp only [Bool.and_eq_true] at hgiven
  obtain ⟨⟨hignore,hselect⟩,hok⟩ := hgiven
  have hv : s.validate = .ok () := by
    cases h : s.validate with
    | ok u => rfl
    | error e =>
      rw [h] at hok
      cases hok
  exact ⟨o,x,s,hstart,hs,hignore,hselect,hv,fun h => h.refused .ignore .select (by decide) hignore hselect hv,hx.2⟩

end DocLint
