import DocLint.Config.Session
import DocLint.Proofs.Answer

/-!
A setting says the same in a configuration file and on the command line, with one exception: files
may not name the decorators of properties, and are warned if they do.
-/

set_option autoImplicit false

namespace DocLint

open Toml (Value)

theorem Logged.bind_ok {ε α β : Type} {r : Logged ε α} {f : α → Logged ε β} {a : α} {log log' : List LogLine}
    (h : r log = .ok a log') : (r >>= f) log = f a log' := by
  change EStateM.bind r f log = _
  rw [EStateM.bind,h]

theorem Logged.bind_error {ε α β : Type} {r : Logged ε α} {f : α → Logged ε β} {e : ε}
    {log log' : List LogLine} (h : r log = .error e log') : (r >>= f) log = .error e log' := by
  change EStateM.bind r f log = _
  rw [EStateM.bind,h]

/-! ### Settings by their keys -/

namespace GivenSettings

variable {g : GivenSettings}

def get (g : GivenSettings) : SettingKey → Option Value
  | .convention => g.convention
  | .select => g.select
  | .ignore => g.ignore
  | .addSelect => g.addSelect
  | .addIgnore => g.addIgnore
  | .files => g.files
  | .folders => g.folders
  | .ignoreDecorators => g.ignoreDecorators
  | .propertyDecorators => g.propertyDecorators

theorem get_set (key key' : SettingKey) (v : Value) :
    (g.set key v).get key' = if key' = key then some v else g.get key' := by
  cases key <;> cases key' <;> rfl

theorem eq_of_get {g' : GivenSettings} (h : ∀ key, g.get key = g'.get key) : g = g' := by
  obtain ⟨a₁,a₂,a₃,a₄,a₅,a₆,a₇,a₈,a₉⟩ := g
  obtain ⟨b₁,b₂,b₃,b₄,b₅,b₆,b₇,b₈,b₉⟩ := g'
  have h₁ : a₁ = b₁ := h .convention
  have h₂ : a₂ = b₂ := h .select
  have h₃ : a₃ = b₃ := h .ignore
  have h₄ : a₄ = b₄ := h .addSelect
  have h₅ : a₅ = b₅ := h .addIgnore
  have h₆ : a₆ = b₆ := h .files
  have h₇ : a₇ = b₇ := h .folders
  have h₈ : a₈ = b₈ := h .ignoreDecorators
  have h₉ : a₉ = b₉ := h .propertyDecorators
  rw [h₁,h₂,h₃,h₄,h₅,h₆,h₇,h₈,h₉]

end GivenSettings

/-- A value for a setting, under its name or under one with underscores for hyphens. -/
structure Assignment where
  key : SettingKey
  spelling : Text
  value : Text
  spelled : spelling.map (fun c => if c = '_' then '-' else c) = key.name

namespace Assignment

def word (x : Assignment) : Text := "--".toList ++ x.key.name ++ "=".toList ++ x.value

def option (x : Assignment) : Text × Value := (x.spelling,.text x.value)

def given (as : List Assignment) (g : GivenSettings) : GivenSettings :=
  as.foldl (fun g x => g.set x.key (.text x.value)) g

variable {as bs : List Assignment} {g : GivenSettings}

theorem get_given_of_ne {key : SettingKey} (h : ∀ x ∈ as, x.key ≠ key) : (given as g).get key = g.get key := by
  induction as generalizing g with
  | nil => rfl
  | cons x as ih =>
    have hx : ¬key = x.key := fun heq => h x List.mem_cons_self heq.symm
    have hrest := ih (g := g.set x.key (.text x.value)) fun y hy => h y (List.mem_cons_of_mem x hy)
    rw [GivenSettings.get_set,if_neg hx] at hrest
    exact hrest

theorem get_given_of_mem (hkeys : (as.map (·.key)).Nodup) {x : Assignment} (hx : x ∈ as) :
    (given as g).get x.key = some (.text x.value) := by
  induction as generalizing g with
  | nil => cases hx
  | cons y as ih =>
    obtain ⟨hy,hkeys⟩ := List.nodup_cons.mp hkeys
    rcases List.mem_cons.mp hx with rfl | hx
    · have hne : ∀ z ∈ as, z.key ≠ x.key := fun z hz heq => hy (List.mem_map.mpr ⟨z,hz,heq⟩)
      have hrest := get_given_of_ne (g := g.set x.key (.text x.value)) hne
      rw [GivenSettings.get_set,if_pos rfl] at hrest
      exact hrest
    · exact ih hkeys hx

theorem given_perm (hkeys : (as.map (·.key)).Nodup) (h : bs.Perm as) : given bs {} = given as {} := by
  have hkeys' : (bs.map (·.key)).Nodup := (h.map _).nodup_iff.mpr hkeys
  refine GivenSettings.eq_of_get fun key => ?_
  by_cases hx : ∃ x ∈ as, x.key = key
  · obtain ⟨x,hx,rfl⟩ := hx
    rw [get_given_of_mem hkeys hx,get_given_of_mem hkeys' (h.mem_iff.mpr hx)]
  · have hne : ∀ x ∈ as, x.key ≠ key := fun x hxa heq => hx ⟨x,hxa,heq⟩
    rw [get_given_of_ne hne,get_given_of_ne fun x hxb => hne x (h.mem_iff.mp hxb)]

theorem given_filter (hkeys : (as.map (·.key)).Nodup) :
    given (as.filter (·.key.isForFiles)) {} = { given as {} with propertyDecorators := none } := by
  refine GivenSettings.eq_of_get fun key => ?_
  by_cases hkey : key.isForFiles = true
  · have hright : ({ given as {} with propertyDecorators := none } : GivenSettings).get key =
        (given as {}).get key := by
      cases key <;> first | rfl | cases hkey
    have hkeys' : ((as.filter (·.key.isForFiles)).map (·.key)).Nodup :=
      (List.filter_sublist.map _).nodup hkeys
    rw [hright]
    by_cases hx : ∃ x ∈ as, x.key = key
    · obtain ⟨x,hx,rfl⟩ := hx
      rw [get_given_of_mem hkeys hx,get_given_of_mem hkeys' (List.mem_filter.mpr ⟨hx,hkey⟩)]
    · have hne : ∀ x ∈ as, x.key ≠ key := fun x hxa heq => hx ⟨x,hxa,heq⟩
      rw [get_given_of_ne hne,get_given_of_ne fun x hxf => hne x (List.mem_filter.mp hxf).1]
  · obtain rfl : key = .propertyDecorators := by
      cases key <;> first | rfl | exact absurd rfl hkey
    refine (get_given_of_ne fun x hx heq => ?_).trans rfl
    have hfor := (List.mem_filter.mp hx).2
    rw [heq] at hfor
    cases hfor

theorem get_given_iff {key : SettingKey} {v : Value} (hkeys : (as.map (·.key)).Nodup) :
    (given as {}).get key = some v ↔ ∃ x ∈ as, x.key = key ∧ v = .text x.value := by
  constructor
  · intro h
    by_cases hx : ∃ x ∈ as, x.key = key
    · obtain ⟨x,hx,rfl⟩ := hx
      rw [get_given_of_mem hkeys hx] at h
      exact ⟨x,hx,rfl,(Option.some.inj h).symm⟩
    · rw [get_given_of_ne fun x hxa heq => hx ⟨x,hxa,heq⟩] at h
      cases key <;> cases h
  · rintro ⟨x,hx,rfl,rfl⟩
    exact get_given_of_mem hkeys hx

/-! ### On the command line -/

theorem splitValue_word (x : Assignment) :
    Arguments.splitValue x.word = ((Flag.setting x.key).long,some x.value) := by
  obtain ⟨key,spelling,value,spelled⟩ := x
  cases key <;> rfl

theorem longFlag_setting (key : SettingKey) :
    Arguments.longFlag (Flag.setting key).long = .ok (.setting key) := by
  cases key <;> rfl

theorem word_eq (x : Assignment) : x.word = '-' :: '-' :: (x.key.name ++ '=' :: x.value) := by
  simp [word]

theorem read_words (as : List Assignment) (a : Arguments) :
    a.read (as.map word) = .ok { a with given := given as a.given } := by
  induction as generalizing a with
  | nil => simp [Arguments.read,given]
  | cons x as ih =>
    have hword : x.word ≠ "--".toList := by simp [word_eq]
    have hhyphens : "--".toList.isPrefixOf x.word = true := by simp [word_eq]
    have htakes : (Flag.setting x.key).takesValue = true := by
      cases x.key <;> rfl
    unfold Arguments.read
    simp only [List.map_cons,if_neg hword,if_pos hhyphens,splitValue_word,longFlag_setting,htakes]
    exact ih (a.give (.setting x.key) x.value)

end Assignment

/-! ### In a file -/

namespace Config

/-- Options with the texts that they are set to, if they are all set to texts. -/
def textsOf : Toml.Table → Option (List (Text × Text))
  | [] => some []
  | (name,.text t) :: rest => (textsOf rest).map ((name,t) :: ·)
  | _ :: _ => none

theorem eq_of_textsOf {options : Toml.Table} {pairs : List (Text × Text)} (h : textsOf options = some pairs) :
    options = pairs.map fun p => (p.1,.text p.2) := by
  induction options generalizing pairs with
  | nil =>
    cases h
    rfl
  | cons option rest ih =>
    obtain ⟨name,v⟩ := option
    cases v with
    | text t =>
      obtain ⟨more,hmore,rfl⟩ := Option.map_eq_some_iff.mp h
      rw [ih hmore]
      rfl
    | _ => cases h

/-- What is set to texts in the section of a file of tables, if nothing else is there. -/
def textsIn (w : Workspace) (location : Text) : Option (List (Text × Text)) :=
  if isTableFile location && w.readsTables then do
    let bytes ← (w.files.read location).toOption
    let text ← Encoding.utf8? bytes
    let table ← Toml.ofText? text
    let options ← (← (table.section? "pydocstyle").toOption)
    textsOf options
  else none

variable {w : Workspace} {location : Text} {log : List LogLine} {as : List Assignment}

theorem exists_of_textsIn {pairs : List (Text × Text)} (h : textsIn w location = some pairs) :
    ∃ table : Toml.Table, table.section? "pydocstyle" = .ok (some (pairs.map fun p => (p.1,.text p.2))) ∧
      ∀ log, readSource w location log = .ok (some (.table table)) log := by
  unfold textsIn at h
  split at h
  · rename_i hreads
    rw [Bool.and_eq_true] at hreads
    obtain ⟨bytes,hbytes,h⟩ := Option.bind_eq_some_iff.mp h
    obtain ⟨text,htext,h⟩ := Option.bind_eq_some_iff.mp h
    obtain ⟨table,htable,h⟩ := Option.bind_eq_some_iff.mp h
    obtain ⟨found,hfound,h⟩ := Option.bind_eq_some_iff.mp h
    obtain ⟨options,rfl,h⟩ := Option.bind_eq_some_iff.mp h
    refine ⟨table,?_,fun log => ?_⟩
    · rw [toOption_eq_some hfound,eq_of_textsOf h]
    · have hread : readTable w location = pure (some table) := by
        simp only [readTable,toOption_eq_some hbytes,hreads.2,htext,htable]
        rfl
      rw [readSource,if_pos hreads.1,hread]
      rfl
  · cases h

def warning (x : Assignment) : List LogLine :=
  if x.key.isForFiles then []
  else [{ level := .warning, text := "Unknown option '".toList ++ x.spelling ++ "' ignored".toList }]

theorem ofFileName_spelling (x : Assignment) :
    SettingKey.ofFileName? x.spelling = if x.key.isForFiles then some x.key else none := by
  obtain ⟨key,spelling,value,spelled⟩ := x
  unfold SettingKey.ofFileName?
  rw [spelled]
  cases key <;> rfl

theorem spelling_ne_inherit (x : Assignment) : x.spelling ≠ "inherit".toList := by
  intro h
  have hname := x.spelled
  rw [h] at hname
  revert hname
  cases x.key <;> decide

theorem takeOption_run (s : Source) (f : FileSettings) (x : Assignment) :
    takeOption s "pydocstyle" f x.option log =
      .ok { f with given := Assignment.given ([x].filter (·.key.isForFiles)) f.given } (log ++ warning x) := by
  unfold takeOption Assignment.option warning
  dsimp only
  rw [if_neg (spelling_ne_inherit x),ofFileName_spelling]
  cases hkey : x.key.isForFiles with
  | true =>
    rw [List.filter_cons_of_pos (by exact hkey),List.filter_nil,if_pos rfl,if_pos rfl,List.append_nil]
    rfl
  | false =>
    rw [List.filter_cons_of_neg (by simp [hkey]),List.filter_nil,if_neg (by decide),if_neg (by decide)]
    rfl

theorem takeOptions_run (s : Source) (f : FileSettings) :
    (as.map Assignment.option).foldlM (takeOption s "pydocstyle") f log =
      .ok { f with given := Assignment.given (as.filter (·.key.isForFiles)) f.given }
        (log ++ as.flatMap warning) := by
  induction as generalizing f log with
  | nil => simp [Assignment.given]; rfl
  | cons x as ih =>
    rw [List.map_cons,List.foldlM_cons]
    change EStateM.bind _ _ log = _
    rw [EStateM.bind,takeOption_run]
    refine (ih _).trans ?_
    have hfilter : (x :: as).filter (·.key.isForFiles) =
        [x].filter (·.key.isForFiles) ++ as.filter (·.key.isForFiles) := by
      rw [← List.filter_append]
      rfl
    rw [List.flatMap_cons,List.append_assoc,hfilter]
    simp only [Assignment.given,List.foldl_append]

theorem expandList_run {o : Option Value} (h : ∀ v, o = some v → ∃ t, v = .text t) :
    ∃ codes lines, ∀ log, GivenSettings.expandList o log = .ok codes (log ++ lines) := by
  cases o with
  | none => exact ⟨none,[],fun log => by rw [List.append_nil]; rfl⟩
  | some v =>
    obtain ⟨t,rfl⟩ := h v rfl
    exact ⟨_,_,fun log => rfl⟩

/-- Lists of codes that are given as texts can be expanded, whatever decorators of properties there are. -/
theorem expandGiven_run {g : GivenSettings} (h : ∀ key v, g.get key = some v → ∃ t, v = .text t) :
    ∃ (settings : Settings) (lines : List LogLine),
      settings.propertyDecorators = g.propertyDecorators ∧ ∀ log decorators,
      expandGiven { g with propertyDecorators := decorators } log =
        .ok { settings with propertyDecorators := decorators } (log ++ lines) := by
  obtain ⟨ignore,lines₁,h₁⟩ := expandList_run (o := g.ignore) (h .ignore)
  obtain ⟨select,lines₂,h₂⟩ := expandList_run (o := g.select) (h .select)
  obtain ⟨addIgnore,lines₃,h₃⟩ := expandList_run (o := g.addIgnore) (h .addIgnore)
  obtain ⟨addSelect,lines₄,h₄⟩ := expandList_run (o := g.addSelect) (h .addSelect)
  refine ⟨{ convention := g.convention, select, ignore, addSelect := addSelect.getD []
            addIgnore := addIgnore.getD [], files := g.files, folders := g.folders
            ignoreDecorators := g.ignoreDecorators, propertyDecorators := g.propertyDecorators },
    lines₁ ++ lines₂ ++ lines₃ ++ lines₄,rfl,fun log decorators => ?_⟩
  have hrun : GivenSettings.expand { g with propertyDecorators := decorators } log =
      .ok { convention := g.convention, select, ignore, addSelect := addSelect.getD []
            addIgnore := addIgnore.getD [], files := g.files, folders := g.folders
            ignoreDecorators := g.ignoreDecorators, propertyDecorators := decorators }
        (log ++ (lines₁ ++ lines₂ ++ lines₃ ++ lines₄)) := by
    rw [GivenSettings.expand,Logged.bind_ok (h₁ _),Logged.bind_ok (h₂ _),Logged.bind_ok (h₃ _),
      Logged.bind_ok (h₄ _)]
    simp only [List.append_assoc]
    rfl
  rw [expandGiven,EStateM.run,hrun]

theorem source_section (log : List LogLine) {table options : Toml.Table}
    (h : table.section? "pydocstyle" = .ok (some options)) :
    liftExcept (Source.table table).section? log = .ok (some "pydocstyle".toList) log ∧
      liftExcept ((Source.table table).options "pydocstyle") log = .ok options log := by
  have hsection : (Source.table table).hasSection "pydocstyle" = .ok true := by
    rw [Source.hasSection,h]
    rfl
  have hoptions : table.sectionOf "pydocstyle" = .ok options := by
    rw [Toml.Table.sectionOf,h]
    rfl
  constructor
  · change liftExcept (Source.firstSection? _ ("pydocstyle".toList :: _)) log = _
    rw [Source.firstSection?,hsection]
    rfl
  · rw [Source.options,hoptions]
    rfl

theorem accept_valid {settings : Settings} (h : settings.validate = .ok ()) (message : Text) :
    accept settings message log = .ok () log := by
  rw [accept,h]
  rfl

theorem accept_invalid (settings : Settings) (h : settings.validate ≠ .ok ()) (message : Text) :
    ∃ fault told, accept settings message log = .error fault (log ++ told) := by
  cases hvalid : settings.validate with
  | ok _ => exact absurd hvalid h
  | error e =>
    rw [accept,hvalid]
    cases e with
    | conventionType => exact ⟨_,[],by rw [List.append_nil]; rfl⟩
    | _ => exact ⟨_,_,rfl⟩

/-- The settings in a file of tables are those of its assignments without the ones that are not for files,
as far as they are accepted. -/
theorem settingsIn_run (hkeys : (as.map (·.key)).Nodup)
    (hfile : textsIn w location = some (as.map fun x => (x.spelling,x.value))) (settings : Settings)
    {lines : List LogLine} (hexpand : ∀ log decorators,
      expandGiven { Assignment.given as {} with propertyDecorators := decorators } log =
        .ok { settings with propertyDecorators := decorators } (log ++ lines)) :
    settingsIn w location [] =
      (accept { settings with propertyDecorators := none } ("in file: ".toList ++ location) >>= fun _ =>
        pure (some { settings with propertyDecorators := none },true)) (as.flatMap warning ++ lines) := by
  obtain ⟨table,hsection,hread⟩ := exists_of_textsIn hfile
  obtain ⟨hname,hoptions⟩ := source_section [] hsection
  rw [List.map_map] at hoptions
  have hgiven : ∀ log, expandGiven (Assignment.given (as.filter (·.key.isForFiles)) {}) log =
      .ok { settings with propertyDecorators := none } (log ++ lines) := by
    intro log
    rw [Assignment.given_filter hkeys]
    exact hexpand log none
  calc settingsIn w location []
    _ = _ := Logged.bind_ok (hread [])
    _ = _ := Logged.bind_ok hname
    _ = _ := Logged.bind_ok hoptions
    _ = _ := Logged.bind_ok (takeOptions_run (.table table) {})
    _ = _ := Logged.bind_ok (hgiven _)

end Config

/-! ### Both -/

/-- A file of tables that sets some settings, in any order and with hyphens or underscores, means what the
same settings mean on the command line, except that decorators of properties are passed over with a
warning. -/
theorem settingsIn_agrees (w : Workspace) (location : Text) (as bs : List Assignment)
    (hkeys : (as.map (·.key)).Nodup) (hperm : bs.Perm as)
    (hfile : Config.textsIn w location = some (as.map fun x => (x.spelling,x.value))) :
    ∃ (g : GivenSettings) (settings : Settings) (lines : List LogLine),
      Arguments.ofWords (bs.map Assignment.word) = .ok { given := g } ∧
      (∀ key v, g.get key = some v ↔ ∃ x ∈ as, x.key = key ∧ v = .text x.value) ∧
      Config.expandGiven g [] = .ok settings lines ∧
      (settings.validate = .ok () → Config.settingsIn w location [] =
        .ok (some { settings with propertyDecorators := none },true) (as.flatMap Config.warning ++ lines)) ∧
      (settings.validate ≠ .ok () → ∃ fault told, Config.settingsIn w location [] =
        .error fault (as.flatMap Config.warning ++ lines ++ told)) ∧
      ({ settings with propertyDecorators := none } = settings ↔ ∀ x ∈ as, x.key ≠ .propertyDecorators) := by
  have hget : ∀ key v, (Assignment.given as {}).get key = some v ↔ ∃ x ∈ as, x.key = key ∧ v = .text x.value :=
    fun key v => Assignment.get_given_iff hkeys
  obtain ⟨settings,lines,hdecorators,hexpand⟩ := Config.expandGiven_run (g := Assignment.given as {})
    fun key v h => by
      obtain ⟨x,-,-,rfl⟩ := (hget key v).mp h
      exact ⟨x.value,rfl⟩
  have hrun := Config.settingsIn_run hkeys hfile settings hexpand
  refine ⟨Assignment.given as {},settings,lines,?_,hget,?_,fun hvalid => ?_,fun hinvalid => ?_,?_⟩
  · rw [Arguments.ofWords,Assignment.read_words,Assignment.given_perm hkeys hperm]
  · have hwhole := hexpand [] (Assignment.given as {}).propertyDecorators
    rw [← hdecorators,List.nil_append] at hwhole
    rw [← hwhole,hdecorators]
  -- validation does not look at the decorators, so file and command line pass it together
  · exact hrun.trans (Logged.bind_ok (Config.accept_valid hvalid _))
  · obtain ⟨fault,told,hfault⟩ := Config.accept_invalid
      { settings with propertyDecorators := none } hinvalid ("in file: ".toList ++ location)
    exact ⟨fault,told,hrun.trans (Logged.bind_error hfault)⟩
  · constructor
    · intro h x hx hkey
      have hnone : (Assignment.given as {}).propertyDecorators = none := by
        rw [← hdecorators,← h]
      have hsome := (hget .propertyDecorators (.text x.value)).mpr ⟨x,hx,hkey,rfl⟩
      rw [GivenSettings.get,hnone] at hsome
      cases hsome
    · intro h
      have hnone := Assignment.get_given_of_ne (g := {}) h
      rw [GivenSettings.get,← hdecorators] at hnone
      obtain ⟨⟩ := settings
      cases hnone
      rfl

def Workspace.single (name text : Text) : Workspace :=
  { files := { root := .file name (text.map fun c => c.toNat.toUInt8) .empty, working := [] } }

def foldersAssigned : Assignment := { key := .folders, spelling := "match_dir", value := "x", spelled := rfl }

def selectAssigned : Assignment := { key := .select, spelling := "select", value := "D100, D2x", spelled := rfl }

theorem settingsIn_agrees_single : ∃ (g : GivenSettings) (settings : Settings) (lines : List LogLine),
    Arguments.ofWords ["--match-dir=x".toList,"--select=D100, D2x".toList] = .ok { given := g } ∧
    Config.expandGiven g [] = .ok settings lines ∧
    Config.settingsIn (Workspace.single "pyproject.toml"
      "[tool.pydocstyle]\nselect = 'D100, D2x'\nmatch_dir = 'x'".toList) "pyproject.toml" [] =
        .ok (some settings,true) lines := by
  obtain ⟨g,settings,lines,hwords,-,hexpand,hrun,-,hsame⟩ := settingsIn_agrees
    (Workspace.single "pyproject.toml" "[tool.pydocstyle]\nselect = 'D100, D2x'\nmatch_dir = 'x'".toList)
    "pyproject.toml" [selectAssigned,foldersAssigned] [foldersAssigned,selectAssigned]
    (by decide) (List.Perm.swap _ _ _) (by decide +kernel)
  have hread : Arguments.ofWords [foldersAssigned.word,selectAssigned.word] =
      .ok { given := Assignment.given [foldersAssigned,selectAssigned] {} } :=
    Assignment.read_words [foldersAssigned,selectAssigned] {}
  have hvalid : settings.validate = .ok () := by
    cases hread.symm.trans hwords
    cases hexpand
    rfl
  refine ⟨g,settings,lines,hwords,hexpand,?_⟩
  have hquiet : [selectAssigned,foldersAssigned].flatMap Config.warning = [] := by decide
  rw [hrun hvalid,hsame.mpr (by decide),hquiet,List.nil_append]

def decoratorsAssigned : Assignment :=
  { key := .propertyDecorators, spelling := "property_decorators", value := "a", spelled := rfl }

theorem propertyDecorators_passed_over :
    Arguments.ofWords ["--property-decorators=a".toList] =
      .ok { given := { propertyDecorators := some (.text "a") } } ∧
    Config.expandGiven { propertyDecorators := some (.text "a") } [] =
      .ok { propertyDecorators := some (.text "a") } [] ∧
    Config.settingsIn (Workspace.single "pyproject.toml"
      "[tool.pydocstyle]\nproperty_decorators = 'a'".toList) "pyproject.toml" [] =
        .ok (some {},true)
          [{ level := .warning, text := "Unknown option 'property_decorators' ignored".toList }] := by
  refine ⟨Assignment.read_words [decoratorsAssigned] {},rfl,?_⟩
  have hfile : Config.textsIn (Workspace.single "pyproject.toml"
      "[tool.pydocstyle]\nproperty_decorators = 'a'".toList) "pyproject.toml" =
        some ([decoratorsAssigned].map fun x => (x.spelling,x.value)) := by
    decide +kernel
  have hexpand : ∀ log decorators,
      Config.expandGiven { Assignment.given [decoratorsAssigned] {} with propertyDecorators := decorators } log =
        .ok { propertyDecorators := decorators } (log ++ []) := by
    intro log decorators
    rw [List.append_nil]
    rfl
  exact (Config.settingsIn_run (by decide) hfile {} hexpand).trans rfl

end DocLint
