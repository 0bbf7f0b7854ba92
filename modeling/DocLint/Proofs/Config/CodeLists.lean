import DocLint.Proofs.Config.Exclusive

/-!
Lists of codes in a file of tables. A text and an array of texts can be read as a list of codes. Any other
value ends the reading of the file with a fault of its own, which is not the one for illegal configurations.
-/

set_option autoImplicit false

namespace DocLint

open Toml (Value Table)

inductive ListKey where
  | ignore | select | addIgnore | addSelect
  deriving DecidableEq, Repr

def ListKey.key : ListKey → SettingKey
  | .ignore => .ignore
  | .select => .select
  | .addIgnore => .addIgnore
  | .addSelect => .addSelect

/-- The codes of a list. One that adds or takes away codes is empty where nothing is given. -/
def Settings.list (s : Settings) : ListKey → Option CodeSet
  | .ignore => s.ignore
  | .select => s.select
  | .addIgnore => some s.addIgnore
  | .addSelect => some s.addSelect

/-! ### Values that are lists of codes -/

theorem textsOf_eq_some {items : List Value} {parts : List Text} :
    textsOf? items = some parts ↔ items = parts.map .text := by
  induction items generalizing parts with
  | nil => cases parts <;> simp [textsOf?]
  | cons v vs ih =>
    cases v with
    | text t =>
      constructor
      · intro h
        obtain ⟨more,hmore,rfl⟩ := Option.map_eq_some_iff.mp h
        rw [ih.mp hmore]
        rfl
      · intro h
        cases parts with
        | nil => cases h
        | cons p ps =>
          obtain ⟨hp,hps⟩ := List.cons.inj h
          cases hp
          exact Option.map_eq_some_iff.mpr ⟨ps,ih.mpr hps,rfl⟩
    | _ => cases parts <;> simp [textsOf?]

inductive ListsCodes : Value → List Text → Prop
  | text (t : Text) : ListsCodes (.text t) (Text.splitOn ',' t)
  | array (parts : List Text) : ListsCodes (.array (parts.map .text)) parts

inductive NoCodes : Value → CodeListFault → Prop
  | scalar {v : Value} (htext : ∀ t, v ≠ .text t) (harray : ∀ items, v ≠ .array items) : NoCodes v .notAList
  | item {items : List Value} {v : Value} (hv : v ∈ items) (htext : ∀ t, v ≠ .text t) :
      NoCodes (.array items) .itemNotText

theorem codeParts_eq_ok {v : Value} {parts : List Text} : codeParts v = .ok parts ↔ ListsCodes v parts := by
  cases v with
  | text t =>
    constructor
    · intro h
      cases h
      exact .text t
    · intro h
      cases h
      rfl
  | array items =>
    constructor
    · intro h
      unfold codeParts at h
      dsimp only at h
      split at h
      · rename_i found hfound
        cases h
        rw [textsOf_eq_some.mp hfound]
        exact .array parts
      · cases h
    · intro h
      cases h
      unfold codeParts
      dsimp only
      rw [textsOf_eq_some.mpr rfl]
  | _ =>
    constructor
    · intro h
      cases h
    · intro h
      cases h

theorem codeParts_eq_error {v : Value} {e : CodeListFault} : codeParts v = .error e ↔ NoCodes v e := by
  cases v with
  | text t =>
    constructor
    · intro h
      cases h
    · intro h
      cases h with
      | scalar htext _ => exact absurd rfl (htext t)
  | array items =>
    have hitem (htexts : textsOf? items = none) : ∃ v ∈ items, ∀ t, v ≠ .text t := by
      induction items with
      | nil => cases htexts
      | cons v vs ih =>
        cases v with
        | text t =>
          obtain ⟨v,hv,htext⟩ := ih (Option.map_eq_none_iff.mp htexts)
          exact ⟨v,List.mem_cons_of_mem _ hv,htext⟩
        | _ => exact ⟨_,List.mem_cons_self,nofun⟩
    constructor
    · intro h
      unfold codeParts at h
      dsimp only at h
      split at h
      · cases h
      · rename_i hnone
        cases h
        obtain ⟨v,hv,htext⟩ := hitem hnone
        exact .item hv htext
    · intro h
      unfold codeParts
      dsimp only
      cases h with
      | scalar _ harray => exact absurd rfl (harray items)
      | item hv htext =>
        cases hfound : textsOf? items with
        | none => rfl
        | some parts =>
          rw [textsOf_eq_some.mp hfound] at hv
          obtain ⟨t,-,rfl⟩ := List.mem_map.mp hv
          exact absurd rfl (htext t)
  | _ =>
    constructor
    · intro h
      cases h
      exact .scalar nofun nofun
    · intro h
      cases h
      rfl

theorem listsCodes_or (v : Value) : (∃ parts, ListsCodes v parts) ∨ ∃ e, NoCodes v e := by
  cases h : codeParts v with
  | ok parts => exact .inl ⟨parts,codeParts_eq_ok.mp h⟩
  | error e => exact .inr ⟨e,codeParts_eq_error.mp h⟩

/-- The codes that a list names: the known ones that begin with one of its parts. -/
def Named (parts : List Text) (code : Text) : Prop :=
  code ∈ CodeSet.all ∧ ∃ p ∈ parts, p.strip ≠ [] ∧ p.strip <+: code

namespace GivenSettings

variable {g : GivenSettings} {log : List LogLine}

theorem expandList_run_ok {v : Value} {parts : List Text} (h : ListsCodes v parts) (log : List LogLine) :
    ∃ codes log', expandList (some v) log = .ok (some codes) log' ∧ ∀ code, code ∈ codes ↔ Named parts code := by
  have hcodes : codesOf v = .ok (CodeSet.expand (parts.map Text.strip).eraseDups,
      (CodeSet.unknown (parts.map Text.strip).eraseDups).map unknownCodeWarning) := by
    rw [codesOf,codeParts_eq_ok.mpr h]
    rfl
  simp only [expandList,hcodes]
  exact ⟨_,_,rfl,fun code => mem_expand_strip⟩

theorem expandList_run_error {v : Value} {e : CodeListFault} (h : NoCodes v e) (log : List LogLine) :
    expandList (some v) log = .error e log := by
  have hcodes : codesOf v = .error e := by
    rw [codesOf,codeParts_eq_error.mpr h]
    rfl
  simp only [expandList,hcodes]
  rfl

theorem exists_expandList {o : Option Value} (h : ∀ v, o = some v → ∃ parts, ListsCodes v parts)
    (log : List LogLine) : ∃ codes log', expandList o log = .ok codes log' := by
  cases o with
  | none => exact ⟨none,log,rfl⟩
  | some v =>
    obtain ⟨parts,hparts⟩ := h v rfl
    obtain ⟨codes,log',hrun,-⟩ := expandList_run_ok hparts log
    exact ⟨some codes,log',hrun⟩

/-- Where a list is read, what is given for it is a list of codes. -/
theorem expandList_reads {v : Value} {codes : Option CodeSet} {log' : List LogLine}
    (h : expandList (some v) log = .ok codes log') :
    ∃ parts, ListsCodes v parts ∧ ∃ found, codes = some found ∧ ∀ code, code ∈ found ↔ Named parts code := by
  rcases listsCodes_or v with ⟨parts,hparts⟩ | ⟨e,he⟩
  · obtain ⟨found,log₁,hrun,hfound⟩ := expandList_run_ok hparts log
    cases hrun.symm.trans h
    exact ⟨parts,hparts,found,rfl,hfound⟩
  · cases (expandList_run_error he log).symm.trans h

theorem exists_expand (h : ∀ k v, g.get (ListKey.key k) = some v → ∃ parts, ListsCodes v parts)
    (log : List LogLine) : ∃ s log', g.expand log = .ok s log' := by
  obtain ⟨ignore,log₁,hignore⟩ := exists_expandList (h .ignore) log
  obtain ⟨select,log₂,hselect⟩ := exists_expandList (h .select) log₁
  obtain ⟨addIgnore,log₃,haddIgnore⟩ := exists_expandList (h .addIgnore) log₂
  obtain ⟨addSelect,log₄,haddSelect⟩ := exists_expandList (h .addSelect) log₃
  exact ⟨_,log₄,(Logged.bind_ok hignore).trans ((Logged.bind_ok hselect).trans
    ((Logged.bind_ok haddIgnore).trans (Logged.bind_ok haddSelect)))⟩

structure Listed (g : GivenSettings) (s : Settings) : Prop where
  convention : s.convention = g.convention
  lists : ∀ k v, g.get (ListKey.key k) = some v → ∃ parts, ListsCodes v parts ∧
    ∃ codes, s.list k = some codes ∧ ∀ code, code ∈ codes ↔ Named parts code

theorem listed_of_expand {s : Settings} {log' : List LogLine} (h : g.expand log = .ok s log') : Listed g s := by
  obtain ⟨ignore,log₁,hignore,h⟩ := exists_of_bind h
  obtain ⟨select,log₂,hselect,h⟩ := exists_of_bind h
  obtain ⟨addIgnore,log₃,haddIgnore,h⟩ := exists_of_bind h
  obtain ⟨addSelect,log₄,haddSelect,h⟩ := exists_of_bind h
  cases h
  refine ⟨rfl,fun k v hv => ?_⟩
  cases k with
  | ignore =>
    rw [show g.ignore = some v from hv] at hignore
    exact expandList_reads hignore
  | select =>
    rw [show g.select = some v from hv] at hselect
    exact expandList_reads hselect
  | addIgnore =>
    rw [show g.addIgnore = some v from hv] at haddIgnore
    obtain ⟨parts,hparts,codes,rfl,hcodes⟩ := expandList_reads haddIgnore
    exact ⟨parts,hparts,codes,rfl,hcodes⟩
  | addSelect =>
    rw [show g.addSelect = some v from hv] at haddSelect
    obtain ⟨parts,hparts,codes,rfl,hcodes⟩ := expandList_reads haddSelect
    exact ⟨parts,hparts,codes,rfl,hcodes⟩

/-- Of one value that is no list of codes, the settings have the fault. -/
theorem expand_fault {k : ListKey} {v : Value} {e : CodeListFault} (hv : g.get k.key = some v) (he : NoCodes v e)
    (h : ∀ k' v, k' ≠ k → g.get (ListKey.key k') = some v → ∃ parts, ListsCodes v parts) (log : List LogLine) :
    ∃ log', g.expand log = .error e log' := by
  have hread (k' : ListKey) (hne : k' ≠ k) (log : List LogLine) :
      ∃ codes log', expandList (g.get k'.key) log = .ok codes log' :=
    exists_expandList (fun v => h k' v hne) log
  have hfault (log : List LogLine) : expandList (g.get k.key) log = .error e log := by
    rw [hv]
    exact expandList_run_error he log
  cases k with
  | ignore => exact ⟨log,Logged.bind_error (hfault log)⟩
  | select =>
    obtain ⟨_,log₁,h₁⟩ := hread .ignore nofun log
    exact ⟨log₁,(Logged.bind_ok h₁).trans (Logged.bind_error (hfault log₁))⟩
  | addIgnore =>
    obtain ⟨_,log₁,h₁⟩ := hread .ignore nofun log
    obtain ⟨_,log₂,h₂⟩ := hread .select nofun log₁
    exact ⟨log₂,(Logged.bind_ok h₁).trans ((Logged.bind_ok h₂).trans (Logged.bind_error (hfault log₂)))⟩
  | addSelect =>
    obtain ⟨_,log₁,h₁⟩ := hread .ignore nofun log
    obtain ⟨_,log₂,h₂⟩ := hread .select nofun log₁
    obtain ⟨_,log₃,h₃⟩ := hread .addIgnore nofun log₂
    exact ⟨log₃,(Logged.bind_ok h₁).trans ((Logged.bind_ok h₂).trans ((Logged.bind_ok h₃).trans
      (Logged.bind_error (hfault log₃))))⟩

end GivenSettings

/-! ### The options of a section -/

namespace Config

variable {w : Workspace} {location name : Text} {options : Table} {log : List LogLine} {f : FileSettings}

def optionsIn (w : Workspace) (location : Text) : Option (Text × Table) :=
  if isTableFile location && w.readsTables then do
    let bytes ← (w.files.read location).toOption
    let text ← Encoding.utf8? bytes
    let table ← Toml.ofText? text
    let name ← (← (Source.table table).section?.toOption)
    let options ← ((Source.table table).options name).toOption
    return (name, options)
  else none

def settingsOf (source : Source) (location name : Text) (options : Table) :
    Logged ConfigFault (Option Settings × Bool) := do
  let f ← options.foldlM (takeOption source name) {}
  let settings ← expandGiven f.given
  accept settings ("in file: ".toList ++ location)
  return (some settings, f.inherits)

theorem settingsIn_options (h : optionsIn w location = some (name, options)) :
    ∃ table, settingsIn w location = settingsOf (.table table) location name options := by
  unfold optionsIn at h
  split at h
  · rename_i hreads
    rw [Bool.and_eq_true] at hreads
    obtain ⟨bytes,hbytes,h⟩ := Option.bind_eq_some_iff.mp h
    obtain ⟨text,htext,h⟩ := Option.bind_eq_some_iff.mp h
    obtain ⟨table,htable,h⟩ := Option.bind_eq_some_iff.mp h
    obtain ⟨found,hfound,h⟩ := Option.bind_eq_some_iff.mp h
    obtain ⟨name',hname,h⟩ := Option.bind_eq_some_iff.mp h
    obtain ⟨options',hoptions,h⟩ := Option.bind_eq_some_iff.mp h
    cases h
    subst hname
    have hread : readSource w location = pure (some (.table table)) := by
      rw [readSource,if_pos hreads.1]
      simp only [readTable,toOption_eq_some hbytes,hreads.2,htext,htable]
      rfl
    refine ⟨table,?_⟩
    rw [settingsIn,hread]
    simp only [pure_bind,toOption_eq_some hfound,toOption_eq_some hoptions,liftExcept]
    rfl
  · cases h

def refusal (name : Text) (option : Text × Value) : Option ConfigFault :=
  if option.1 = "inherit".toList then
    match option.2 with
    | .boolean _ => none
    | .table _ => some (.section (.isSection "inherit" name))
    | _ => some (.section (.wrongType "inherit" name .boolean))
  else if (SettingKey.ofFileName? option.1).isSome then
    match option.2 with
    | .table _ => some (.section (.isSection option.1 name))
    | _ => none
  else none

/-- What options that are not refused give, the last one of a key counts. -/
def givenBy (options : Table) (g : GivenSettings) : GivenSettings :=
  options.foldl (fun g option =>
    match SettingKey.ofFileName? option.1 with
    | some key => g.set key option.2
    | none => g) g

theorem ofFileName_inherit : SettingKey.ofFileName? "inherit".toList = none := by decide

theorem takeOption_taken (table : Table) (f : FileSettings) (log : List LogLine) {option : Text × Value}
    (h : refusal name option = none) :
    ∃ f' log', takeOption (.table table) name f option log = .ok f' log' ∧ f'.given = givenBy [option] f.given := by
  obtain ⟨key,v⟩ := option
  unfold refusal at h
  unfold takeOption givenBy
  dsimp only at h ⊢
  split at h
  · rename_i hkey
    subst hkey
    rw [if_pos rfl,List.foldl_cons,List.foldl_nil,ofFileName_inherit]
    cases v with
    | boolean b => exact ⟨_,_,rfl,rfl⟩
    | _ => cases h
  · rename_i hkey
    rw [if_neg hkey,List.foldl_cons,List.foldl_nil]
    dsimp only
    cases hname : SettingKey.ofFileName? key with
    | none => exact ⟨_,_,rfl,rfl⟩
    | some k =>
      cases v with
      | table t => simp [hname] at h
      | _ => exact ⟨_,_,rfl,rfl⟩

theorem takeOption_refused {table : Table} {option : Text × Value} {e : ConfigFault}
    (h : refusal name option = some e) : takeOption (.table table) name f option log = .error e log := by
  obtain ⟨key,v⟩ := option
  unfold refusal at h
  unfold takeOption
  dsimp only at h ⊢
  split at h
  · rename_i hkey
    rw [if_pos hkey]
    cases v <;> cases h <;> rfl
  · rename_i hkey
    rw [if_neg hkey]
    cases hname : SettingKey.ofFileName? key with
    | none => simp [hname] at h
    | some k =>
      cases v with
      | table t =>
        simp only [hname,Option.isSome_some,if_true,Option.some.injEq] at h
        rw [← h]
        rfl
      | _ => simp [hname] at h

theorem takeOptions_taken (table : Table) (f : FileSettings) (log : List LogLine)
    (h : ∀ option ∈ options, refusal name option = none) :
    ∃ f' log', options.foldlM (takeOption (.table table) name) f log = .ok f' log' ∧
      f'.given = givenBy options f.given := by
  induction options generalizing f log with
  | nil => exact ⟨f,log,rfl,rfl⟩
  | cons option options ih =>
    obtain ⟨f₁,log₁,hfirst,hgiven⟩ := takeOption_taken table f log
      (h option List.mem_cons_self)
    obtain ⟨f₂,log₂,hrest,hgiven₂⟩ := ih f₁ log₁ fun x hx => h x (List.mem_cons_of_mem option hx)
    refine ⟨f₂,log₂,?_,?_⟩
    · rw [List.foldlM_cons]
      exact (Logged.bind_ok hfirst).trans hrest
    · rw [hgiven₂,hgiven]
      rfl

theorem takeOptions_refused (table : Table) (f : FileSettings) (log : List LogLine) {option : Text × Value}
    {e : ConfigFault} (hmem : option ∈ options) (he : refusal name option = some e) :
    ∃ other ∈ options, ∃ e' log', refusal name other = some e' ∧
      options.foldlM (takeOption (.table table) name) f log = .error e' log' := by
  induction options generalizing f log with
  | nil => cases hmem
  | cons first options ih =>
    rw [List.foldlM_cons]
    cases hfirst : refusal name first with
    | some e' => exact ⟨first,List.mem_cons_self,e',log,hfirst,Logged.bind_error (takeOption_refused hfirst)⟩
    | none =>
      obtain ⟨f₁,log₁,htaken,-⟩ := takeOption_taken table f log hfirst
      have hmem : option ∈ options := by
        rcases List.mem_cons.mp hmem with rfl | hmem
        · cases hfirst.symm.trans he
        · exact hmem
      obtain ⟨other,hother,e',log',he',hrun⟩ := ih f₁ log₁ hmem
      exact ⟨other,List.mem_cons_of_mem first hother,e',log',he',(Logged.bind_ok htaken).trans hrun⟩

theorem expandGiven_ok {g : GivenSettings} {s : Settings} {log log' : List LogLine}
    (h : g.expand log = .ok s log') : expandGiven g log = .ok s log' := by
  rw [expandGiven,EStateM.run,h]

theorem expandGiven_error {g : GivenSettings} {e : CodeListFault} {log log' : List LogLine}
    (h : g.expand log = .error e log') : expandGiven g log = .error (.codes e) log' := by
  rw [expandGiven,EStateM.run,h]

/-- Settings are accepted or the configuration is illegal, unless the convention is no single value. -/
theorem accept_or_illegal {s : Settings} (h : ∀ v, s.convention = some v → (∀ items, v ≠ .array items) ∧
    ∀ entries, v ≠ .table entries) (message : Text) (log : List LogLine) :
    (∃ log', accept s message log = .ok () log') ∨ ∃ log', accept s message log = .error (.illegal message) log' := by
  unfold accept
  cases hvalid : s.validate with
  | ok u => exact .inl ⟨log,rfl⟩
  | error e =>
    cases e with
    | conventionType =>
      exfalso
      unfold Settings.validate at hvalid
      dsimp only at hvalid
      split at hvalid
      · cases hvalid
      split at hvalid
      · cases hvalid
      split at hvalid
      · cases hvalid
      cases hconvention : s.convention with
      | none => simp [hconvention] at hvalid
      | some v =>
        obtain ⟨harray,htable⟩ := h v hconvention
        simp only [hconvention] at hvalid
        split at hvalid
        · cases hvalid
        · cases v with
          | array items => exact harray items rfl
          | table entries => exact htable entries rfl
          | text t =>
            dsimp only at hvalid
            split at hvalid <;> cases hvalid
          | _ => cases hvalid
    | exclusive a b => exact .inr ⟨_,rfl⟩
    | unknownConvention t => exact .inr ⟨_,rfl⟩

theorem exists_of_givenBy {key : SettingKey} {v : Value} {g : GivenSettings}
    (h : (givenBy options g).get key = some v) : g.get key = some v ∨
      ∃ option ∈ options, SettingKey.ofFileName? option.1 = some key ∧ option.2 = v := by
  induction options generalizing g with
  | nil => exact .inl h
  | cons option options ih =>
    rcases ih h with hfirst | ⟨other,hmem,hkey,hv⟩
    · dsimp only at hfirst
      cases hname : SettingKey.ofFileName? option.1 with
      | none =>
        rw [hname] at hfirst
        exact .inl hfirst
      | some key' =>
        rw [hname] at hfirst
        dsimp only at hfirst
        rw [GivenSettings.get_set] at hfirst
        split at hfirst
        · rename_i heq
          exact .inr ⟨option,List.mem_cons_self,by rw [hname,heq],Option.some.inj hfirst⟩
        · exact .inl hfirst
    · exact .inr ⟨other,List.mem_cons_of_mem option hmem,hkey,hv⟩

theorem not_table_of_taken {key : SettingKey} {v : Value} (htaken : ∀ option ∈ options, refusal name option = none)
    (h : (givenBy options {}).get key = some v) (entries : Table) : v ≠ .table entries := by
  rintro rfl
  rcases exists_of_givenBy h with hnone | ⟨⟨spelling,v⟩,hmem,hkey,rfl⟩
  · cases key <;> cases hnone
  · have hrefusal := htaken _ hmem
    unfold refusal at hrefusal
    dsimp only at hkey hrefusal
    split at hrefusal
    · cases hrefusal
    · rw [hkey] at hrefusal
      cases hrefusal

def Foreseen {α : Type} (r : EStateM.Result ConfigFault (List LogLine) α) : Prop :=
  (∃ a log, r = .ok a log) ∨ ∃ message log, r = .error (.illegal message) log

def Sets (k : ListKey) (option : Text × Value) : Prop := SettingKey.ofFileName? option.1 = some k.key

/-- A section that is in order but for the values of one list of codes: no other option is refused, the other
lists can be read, and the convention is a single value. -/
structure InOrderBut (k : ListKey) (name : Text) (options : Table) : Prop where
  taken : ∀ option ∈ options, ¬Sets k option → refusal name option = none
  lists : ∀ k' v, k' ≠ k → (givenBy options {}).get (ListKey.key k') = some v → ∃ parts, ListsCodes v parts
  convention : ∀ v, (givenBy options {}).get .convention = some v → ∀ items, v ≠ .array items

section Outcome

variable {k : ListKey} {option : Text × Value}

theorem refusal_sets (name : Text) (h : Sets k option) :
    refusal name option = none ∧ (∀ entries, option.2 ≠ .table entries) ∨
    (∃ entries, option.2 = .table entries) ∧ refusal name option = some (.section (.isSection option.1 name)) := by
  obtain ⟨spelling,v⟩ := option
  have hname : ¬spelling = "inherit".toList := by
    rintro rfl
    exact absurd (ofFileName_inherit.symm.trans h) nofun
  simp only [Sets] at h
  simp only [refusal,if_neg hname,h]
  cases v with
  | table entries => exact .inr ⟨⟨entries,rfl⟩,rfl⟩
  | _ => exact .inl ⟨rfl,nofun⟩

theorem InOrderBut.taken_all (h : InOrderBut k name options)
    (htables : ∀ option ∈ options, Sets k option → ∀ entries, option.2 ≠ .table entries) :
    ∀ option ∈ options, refusal name option = none := by
  intro option hmem
  by_cases hsets : Sets k option
  · rcases refusal_sets name hsets with ⟨hnone,-⟩ | ⟨⟨entries,hv⟩,-⟩
    · exact hnone
    · exact absurd hv (htables option hmem hsets entries)
  · exact h.taken option hmem hsets

theorem settingsOf_table (table : Table) (location : Text) (h : InOrderBut k name options) (hmem : option ∈ options)
    (hsets : Sets k option) {entries : Table} (hv : option.2 = .table entries) :
    ∃ other ∈ options, Sets k other ∧ (∃ entries, other.2 = .table entries) ∧
      ∃ log, settingsOf (.table table) location name options [] = .error (.section (.isSection other.1 name)) log := by
  have hrefused : refusal name option = some (.section (.isSection option.1 name)) := by
    rcases refusal_sets name hsets with ⟨-,hne⟩ | ⟨-,hrefused⟩
    · exact absurd hv (hne entries)
    · exact hrefused
  obtain ⟨other,hother,e,log,he,hrun⟩ := takeOptions_refused table {} [] hmem hrefused
  have hsets : Sets k other := by
    by_cases hother' : Sets k other
    · exact hother'
    · cases (h.taken other hother hother').symm.trans he
  rcases refusal_sets name hsets with ⟨hnone,-⟩ | ⟨htable,hother'⟩
  · cases hnone.symm.trans he
  · cases he.symm.trans hother'
    exact ⟨other,hother,hsets,htable,log,Logged.bind_error hrun⟩

theorem settingsOf_fault (table : Table) (location : Text) {v : Value} {e : CodeListFault}
    (htaken : ∀ option ∈ options, refusal name option = none) (h : InOrderBut k name options)
    (hv : (givenBy options {}).get k.key = some v) (he : NoCodes v e) :
    ∃ log, settingsOf (.table table) location name options [] = .error (.codes e) log := by
  obtain ⟨f,log,hrun,hgiven⟩ := takeOptions_taken table {} [] htaken
  obtain ⟨log',hexpand⟩ := GivenSettings.expand_fault hv he h.lists log
  rw [← hgiven] at hexpand
  exact ⟨log',(Logged.bind_ok hrun).trans (Logged.bind_error (expandGiven_error hexpand))⟩

theorem settingsOf_foreseen {table : Table} (htaken : ∀ option ∈ options, refusal name option = none)
    (hlists : ∀ k v, (givenBy options {}).get (ListKey.key k) = some v → ∃ parts, ListsCodes v parts)
    (hconvention : ∀ v, (givenBy options {}).get .convention = some v → ∀ items, v ≠ .array items) :
    Foreseen (settingsOf (.table table) location name options []) := by
  obtain ⟨f,log,hrun,hgiven⟩ := takeOptions_taken table {} [] htaken
  obtain ⟨s,log',hexpand⟩ := GivenSettings.exists_expand hlists log
  have hsettings : s.convention = (givenBy options {}).get .convention :=
    (GivenSettings.listed_of_expand hexpand).convention
  rw [← hgiven] at hexpand
  have hrest : settingsOf (.table table) location name options [] =
      (accept s ("in file: ".toList ++ location) >>= fun _ => pure (some s, f.inherits)) log' :=
    (Logged.bind_ok hrun).trans (Logged.bind_ok (expandGiven_ok hexpand))
  have haccept := accept_or_illegal (s := s) (fun v hv => ?_) ("in file: ".toList ++ location) log'
  · rcases haccept with ⟨log'',haccept⟩ | ⟨log'',haccept⟩
    · exact .inl ⟨_,_,hrest.trans (Logged.bind_ok haccept)⟩
    · exact .inr ⟨_,_,hrest.trans (Logged.bind_error haccept)⟩
  · rw [hsettings] at hv
    exact ⟨hconvention v hv,not_table_of_taken htaken hv⟩

/-- Where settings are given, the lists in them hold the codes that were named. -/
theorem settingsOf_listed {table : Table} {s : Settings} {inherits : Bool}
    (h : settingsOf (.table table) location name options [] = .ok (some s, inherits) log) {v : Value}
    (hv : (givenBy options {}).get k.key = some v) : ∃ parts, ListsCodes v parts ∧
      ∃ codes, s.list k = some codes ∧ ∀ code, code ∈ codes ↔ Named parts code := by
  obtain ⟨f,log₁,hrun,h⟩ := GivenSettings.exists_of_bind h
  obtain ⟨s',log₂,hexpand,h⟩ := GivenSettings.exists_of_bind h
  obtain ⟨_,log₃,-,h⟩ := GivenSettings.exists_of_bind h
  cases h
  have htaken : ∀ option ∈ options, refusal name option = none := by
    intro option hmem
    cases hrefusal : refusal name option with
    | none => rfl
    | some e =>
      obtain ⟨_,-,_,_,-,herror⟩ := takeOptions_refused table {} [] hmem hrefusal
      cases herror.symm.trans hrun
  obtain ⟨f',log',hrun',hgiven⟩ := takeOptions_taken table {} [] htaken
  cases hrun'.symm.trans hrun
  have hexpand : f.given.expand log₁ = .ok s log₂ := by
    unfold expandGiven EStateM.run at hexpand
    split at hexpand
    · cases hexpand
      assumption
    · cases hexpand
  rw [hgiven] at hexpand
  exact (GivenSettings.listed_of_expand hexpand).lists k v hv

end Outcome

/-- What comes of the values that the section of a file of tables gives to lists of codes. Where settings are
given, each list holds the known codes that begin with a part of its value. If the section is in order but for
one list, the file is read or its configuration called illegal exactly if no value of this list is a table and
the one that counts is a text or an array of texts; otherwise there is a fault that tells what the value is. -/
theorem codeLists_read (h : optionsIn w location = some (name, options)) :
    (∀ s inherits log, settingsIn w location [] = .ok (some s, inherits) log →
      ∀ k v, (givenBy options {}).get (ListKey.key k) = some v → ∃ parts, ListsCodes v parts ∧
        ∃ codes, s.list k = some codes ∧ ∀ code, code ∈ codes ↔ Named parts code) ∧
    ∀ k, InOrderBut k name options →
      (Foreseen (settingsIn w location []) ↔
        (∀ option ∈ options, Sets k option → ∀ entries, option.2 ≠ .table entries) ∧
          ∀ v, (givenBy options {}).get k.key = some v → ∃ parts, ListsCodes v parts) ∧
      (∀ option ∈ options, Sets k option → ∀ entries, option.2 = .table entries →
        ∃ other ∈ options, Sets k other ∧ (∃ entries, other.2 = .table entries) ∧
          ∃ log, settingsIn w location [] = .error (.section (.isSection other.1 name)) log) ∧
      ((∀ option ∈ options, Sets k option → ∀ entries, option.2 ≠ .table entries) →
        ∀ v e, (givenBy options {}).get k.key = some v → NoCodes v e →
          ∃ log, settingsIn w location [] = .error (.codes e) log) := by
  obtain ⟨table,hrun⟩ := settingsIn_options h
  rw [hrun]
  refine ⟨fun s inherits log hs k v hv => settingsOf_listed hs hv,fun k horder => ⟨⟨fun hforeseen => ?_,?_⟩,
    fun option hmem hsets entries hv => settingsOf_table _ _ horder hmem hsets hv,
    fun htables v e hv he => settingsOf_fault _ _ (horder.taken_all htables) horder hv he⟩⟩
  · have hnot {e : ConfigFault} {log : List LogLine} (hne : ∀ message, e ≠ .illegal message)
        (herror : settingsOf (.table table) location name options [] = .error e log) : False := by
      rcases hforeseen with ⟨a,log',hok⟩ | ⟨message,log',hillegal⟩
      · cases hok.symm.trans herror
      · cases hillegal.symm.trans herror
        exact hne message rfl
    have htables : ∀ option ∈ options, Sets k option → ∀ entries, option.2 ≠ .table entries := by
      intro option hmem hsets entries hv
      obtain ⟨_,-,-,-,log,herror⟩ := settingsOf_table table location horder hmem hsets hv
      exact hnot (by simp) herror
    refine ⟨htables,fun v hv => ?_⟩
    rcases listsCodes_or v with hlists | ⟨e,he⟩
    · exact hlists
    · obtain ⟨log,herror⟩ := settingsOf_fault table location (horder.taken_all htables)
        horder hv he
      exact (hnot (by simp) herror).elim
  · rintro ⟨htables,hlists⟩
    refine settingsOf_foreseen (horder.taken_all htables) (fun k' v hv => ?_) horder.convention
    by_cases hk : k' = k
    · subst hk
      exact hlists v hv
    · exact horder.lists k' v hk hv

def fiveSelected : Workspace :=
  Workspace.single "pyproject.toml" "[tool.pydocstyle]\nselect = 5\nadd_ignore = ['D1']".toList

def fiveOptions : Table := [("select", .integer 5), ("add_ignore", .array [.text "D1"])]

def isFiveOptions : Text × Table → Bool
  | (name, [(a, .integer 5), (b, .array [.text c])]) =>
    name == "pydocstyle".toList && a == "select".toList && b == "add_ignore".toList && c == "D1".toList
  | _ => false

theorem optionsIn_fiveSelected : optionsIn fiveSelected "pyproject.toml" = some ("pydocstyle".toList, fiveOptions) := by
  have hrun : (optionsIn fiveSelected "pyproject.toml").any isFiveOptions = true := by decide +kernel
  obtain ⟨found,hfound,hfive⟩ := (Option.any_eq_true _ _).mp hrun
  rw [hfound]
  unfold isFiveOptions at hfive
  split at hfive
  · simp only [Bool.and_eq_true,beq_iff_eq] at hfive
    obtain ⟨⟨⟨rfl,rfl⟩,rfl⟩,rfl⟩ := hfive
    rfl
  · cases hfive

theorem inOrder_fiveOptions : InOrderBut .select "pydocstyle" fiveOptions where
  taken := by
    intro option hmem hnot
    rcases List.mem_cons.mp hmem with rfl | hmem
    · exact absurd rfl hnot
    · rw [List.mem_singleton.mp hmem]
      rfl
  lists := by
    intro k v hk hv
    cases k with
    | select => exact absurd rfl hk
    | addIgnore =>
      cases hv
      exact ⟨["D1"],.array ["D1"]⟩
    | _ => cases hv
  convention := nofun

theorem codeLists_read_five : ∃ log, settingsIn fiveSelected "pyproject.toml" [] = .error (.codes .notAList) log := by
  obtain ⟨-,hlists⟩ := codeLists_read optionsIn_fiveSelected
  obtain ⟨-,-,hfault⟩ := hlists .select inOrder_fiveOptions
  refine hfault (fun option hmem hsets entries => ?_) (.integer 5) .notAList rfl (.scalar nofun nofun)
  rcases List.mem_cons.mp hmem with rfl | hmem
  · exact nofun
  · rw [List.mem_singleton.mp hmem]
    exact nofun

/-- A number that is selected is no list of codes, and the configuration is not called illegal. -/
theorem five_unforeseen : ¬Foreseen (settingsIn fiveSelected "pyproject.toml" []) := by
  obtain ⟨table,hrun⟩ := settingsIn_options optionsIn_fiveSelected
  have htaken : ∀ option ∈ fiveOptions, refusal "pydocstyle" option = none := by
    intro option hmem
    rcases List.mem_cons.mp hmem with rfl | hmem
    · rfl
    · rw [List.mem_singleton.mp hmem]
      rfl
  obtain ⟨log,hfault⟩ := settingsOf_fault table "pyproject.toml" htaken
    inOrder_fiveOptions (v := .integer 5) rfl (.scalar nofun nofun)
  rw [hrun,hfault]
  rintro (⟨a,log',hok⟩ | ⟨message,log',hillegal⟩)
  · cases hok
  · cases hillegal

end Config

end DocLint
