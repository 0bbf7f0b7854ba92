import DocLint.Proofs.Config.Independence
import Mathlib.Data.List.Infix

/-!
The codes of a folder by the configuration files on the way down to it. A session gets them from lists
that it changes in place, with the command line having its word at each folder; they are one fold over
the files, with the word of the command line at its end.
-/

set_option autoImplicit false

namespace DocLint

/-! ### The fold -/

namespace Settings

def base (s : Settings) : Except ConfigFault (Option CodeSet) :=
  match s.ignore, s.select, s.convention with
  | some ignored, _, _ => .ok (some (CodeSet.all.without ignored))
  | none, some selected, _ => .ok (some selected)
  | none, none, none => .ok none
  | none, none, some (.text name) =>
    match Convention.ofName? name with
    | some c => .ok (some c.codes)
    | none => .error .unknownConvention
  | none, none, some _ => .error .conventionType

/-- The codes of a folder: those that its own settings name, or else those of the folder above, with
what the settings add and without what they take away. -/
def inherit (codes : Text → Prop) (own : Settings) : Except ConfigFault (Text → Prop) :=
  own.base.map fun base => own.adjust ((base.map CodeSet.has).getD codes)

/-- Settings that name the codes to start from, or have no say about codes. -/
def isQuiet (s : Settings) : Bool := s.isExclusive || s.addSelect.isEmpty && s.addIgnore.isEmpty

/-- What the command line adds and takes away hides a difference that it would make anyway. -/
theorem adjust_congr {given : Settings} {codes codes' : Text → Prop}
    (h : given.adjust codes = given.adjust codes') (own : Settings) :
    given.adjust (own.adjust codes) = given.adjust (own.adjust codes') := by
  funext code
  have hcode := congrFun h code
  simp only [adjust,eq_iff_iff] at hcode ⊢
  grind

theorem adjust_of_empty {s : Settings} (ha : s.addSelect = []) (hi : s.addIgnore = [])
    (codes : Text → Prop) : s.adjust codes = codes := by
  funext code
  simp [adjust,ha,hi]

end Settings

def Start.base : Start → Option CodeSet
  | .standard => none
  | .copied => some Convention.pep257.codes
  | .given codes => some codes

theorem Settings.base_eq (s : Settings) : s.base = s.start.map Start.base := by
  obtain ⟨convention,select,ignore⟩ := s
  cases ignore with
  | some ignored => rfl
  | none =>
    cases select with
    | some selected => rfl
    | none =>
      cases convention with
      | none => rfl
      | some v =>
        cases v with
        | text name =>
          simp only [base,start]
          cases Convention.ofName? name with
          | none => rfl
          | some c => cases c <;> rfl
        | _ => rfl

/-- The settings that count for a folder: those of the topmost file, and those below it on the way
down. -/
structure Lineage where
  top : Option Settings := none
  below : List Settings := []

namespace Lineage

def extend (l : Lineage) (own : Settings) : Lineage := { l with below := l.below ++ [own] }

def codes (l : Lineage) : Except ConfigFault (Text → Prop) :=
  (l.top.toList ++ l.below).foldlM Settings.inherit Convention.pep257.codes.has

def isQuiet (l : Lineage) : Bool := l.top.all Settings.isQuiet

theorem codes_extend (l : Lineage) (own : Settings) :
    (l.extend own).codes = l.codes >>= fun codes => Settings.inherit codes own := by
  simp only [codes,extend,← List.append_assoc,List.foldlM_append,List.foldlM_cons,List.foldlM_nil,bind_pure]

theorem bind_map_extend (l : Except ConfigFault Lineage) (own : Settings) :
    l.map (·.extend own) >>= codes = (l >>= codes) >>= fun codes => Settings.inherit codes own := by
  cases l with
  | error e => rfl
  | ok l => exact codes_extend l own

theorem isQuiet_of_extend {l : Except ConfigFault Lineage} {own : Settings}
    (h : ∀ x, l.map (·.extend own) = .ok x → x.isQuiet = true) : ∀ x, l = .ok x → x.isQuiet = true := by
  rintro x rfl
  exact h (x.extend own) rfl

theorem codes_top (own : Settings) :
    codes { top := some own } = Settings.inherit Convention.pep257.codes.has own := by
  simp only [codes,Option.toList_some,List.append_nil,List.foldlM_cons,List.foldlM_nil,bind_pure]

end Lineage

namespace Lookup

/-- The settings in the configuration file of a folder, if it has one, and whether those of the folder
above are kept. -/
def ownSettings (w : Workspace) (folder : List Text) : Except ConfigFault (Option (Settings × Bool)) :=
  match (Config.fileIn? w (locationOf folder)).run [] with
  | .error e _ => .error e
  | .ok none _ => .ok none
  | .ok (some file) _ =>
    match (Config.settingsIn w file).run [] with
    | .error e _ => .error e
    | .ok (own, inherits) _ => .ok (some (own.getD {}, inherits))

/-- The folders in which files are looked for, from the innermost up to the root. -/
def folders (w : Workspace) : List Text → List (List Text)
  | [] => [[]]
  | n :: up =>
    if w.files.isFolder (locationOf (n :: up)) then (n :: up) :: folders w up
    else
      match up with
      | [] => [[]]
      | m :: more => (m :: more) :: folders w more

/-- The settings that count in the innermost of some folders. A file that does not inherit and one in
the root have nothing above them. -/
def lineage (w : Workspace) : List (List Text) → Except ConfigFault Lineage
  | [] => .ok {}
  | folder :: above => do
    match ← ownSettings w folder with
    | none => lineage w above
    | some (own, inherits) =>
      if !folder.isEmpty && inherits then return (← lineage w above).extend own
      else return { top := some own }

def only (w : Workspace) (file : Text) : Except ConfigFault Lineage :=
  match (Config.settingsIn w file).run [] with
  | .error e _ => .error e
  | .ok (own, _) _ => .ok { top := own }

/-- The settings that count for a location, where a file named on the command line is the only one. -/
def reached (w : Workspace) (run : RunOptions) (location : Text) : Except ConfigFault Lineage :=
  match run.config with
  | none => lineage w (folders w (namesOf location))
  | some file => if w.files.exists? file then only w file else .error (namedMissing file)

variable {w : Workspace} {given own : Settings} {o : Override} {run : RunOptions} {l l' l₁ : Ledger}
  {names folder : List Text} {r : Except ConfigFault Config} {st : Start}

theorem folders_eq (w : Workspace) (names : List Text) :
    folders w names = folderOf w names :: match folderOf w names with
      | [] => []
      | _ :: up => folders w up := by
  cases names with
  | nil => rfl
  | cons n up =>
    by_cases h : w.files.isFolder (locationOf (n :: up)) = true
    · have hf : folderOf w (n :: up) = n :: up := if_pos h
      rw [hf,folders.eq_def]
      exact if_pos h
    · have hf : folderOf w (n :: up) = up := if_neg h
      rw [hf,folders.eq_def]
      refine (if_neg h).trans ?_
      cases up <;> rfl

/-! ### Folders that exist -/

theorem follow_opening {before : List Text} {n : Text} {above : List Folder} {here inside : Folder}
    (h : FileTree.follow (before ++ [n]) above here = .ok (.folder inside)) :
    ∃ inside', FileTree.follow before above here = .ok (.folder inside') := by
  induction before generalizing above here with
  | nil => exact ⟨here,rfl⟩
  | cons m before ih =>
    simp only [List.cons_append] at h
    unfold FileTree.follow at h ⊢
    split at h
    · rename_i hm
      rw [if_pos hm]
      exact ih h
    · rename_i hm
      rw [if_neg hm]
      split at h
      · rename_i hm
        rw [if_pos hm]
        cases above with
        | nil => exact ih h
        | cons up more => exact ih h
      · rename_i hm
        rw [if_neg hm]
        cases hg : here.get? m with
        | none => simp [hg] at h
        | some node =>
          cases node with
          | folder inside =>
            simp only [hg] at h
            exact ih h
          | file content => simp [hg] at h

theorem find_locationOf (h : Proper names) :
    w.files.find (locationOf names) = FileTree.follow names.reverse [] w.files.root := by
  have hfind : w.files.find (locationOf names) =
      FileTree.follow (Text.splitOn '/' (locationOf names)) [] w.files.root := rfl
  rw [hfind]
  cases names with
  | nil => rfl
  | cons n up =>
    rw [splitOn_locationOf h (by simp)]
    rfl

theorem isFolder_tail {n : Text} {up : List Text} (h : Proper (n :: up))
    (hf : w.files.isFolder (locationOf (n :: up)) = true) : w.files.isFolder (locationOf up) = true := by
  unfold FileTree.isFolder at hf ⊢
  rw [find_locationOf h,List.reverse_cons] at hf
  rw [find_locationOf (show Proper up from h.tail)]
  split at hf
  · rename_i node hnode
    cases node with
    | file content => cases hf
    | folder inside =>
      obtain ⟨inside',hi⟩ := follow_opening hnode
      rw [hi]
      rfl
  · cases hf

/-- From a folder that exists, files are looked for in all folders up to the root. -/
theorem folders_of_isFolder (h : Proper names) (hf : w.files.isFolder (locationOf names) = true) :
    folders w names = names.tails := by
  induction names with
  | nil => rfl
  | cons n up ih =>
    rw [folders.eq_def]
    refine (if_pos hf).trans ?_
    rw [ih h.tail (isFolder_tail h hf),List.tails_cons]

theorem folderOf_isFolder (hf : w.files.isFolder (locationOf names) = true) : folderOf w names = names := by
  cases names with
  | nil => rfl
  | cons n up => exact if_pos hf

theorem folders_folderOf (h : Proper names)
    (hf : w.files.isFolder (locationOf (folderOf w names)) = true) :
    folders w names = (folderOf w names).tails := by
  rw [← folders_of_isFolder (proper_folderOf h) hf,folders_eq,folders_eq w (folderOf w names),
    folderOf_isFolder hf]

/-! ### One lookup -/

theorem planned_eq (w : Workspace) (given : Settings) (folder : List Text) :
    planned w given folder = (ownSettings w folder).map fun
      | none => if folder.isEmpty then .fresh given else .borrow
      | some (own, inherits) => if !folder.isEmpty && inherits then .merge own else .fresh own := by
  unfold planned ownSettings
  cases (Config.fileIn? w (locationOf folder)).run [] with
  | error e lines => rfl
  | ok file lines =>
    cases file with
    | none => rfl
    | some file =>
      cases hs : (Config.settingsIn w file).run [] with
      | error e more => simp only [hs,Except.map]
      | ok found more => simp only [hs,Except.map]

theorem lineage_folders (w : Workspace) (given : Settings) (names : List Text) :
    match planned w given (folderOf w names) with
    | .error e => lineage w (folders w names) = .error e
    | .ok .borrow => lineage w (folders w names) = lineage w (folders w (folderOf w names).tail)
    | .ok (.merge own) =>
      lineage w (folders w names) = (lineage w (folders w (folderOf w names).tail)).map (·.extend own)
    | .ok (.fresh own) =>
      own = given ∧ lineage w (folders w names) = .ok {} ∨
        lineage w (folders w names) = .ok { top := some own } := by
  rw [folders_eq,planned_eq,lineage]
  cases ownSettings w (folderOf w names) with
  | error e => rfl
  | ok found =>
    cases found with
    | none =>
      cases folderOf w names with
      | nil => exact .inl ⟨rfl,rfl⟩
      | cons n up => rfl
    | some found =>
      obtain ⟨own,inherits⟩ := found
      cases folderOf w names with
      | nil => exact .inr rfl
      | cons n up =>
        cases inherits with
        | true => rfl
        | false => exact .inr rfl

section Plans

variable {e : ConfigFault}

theorem lineage_unread (hp : planned w given (folderOf w names) = .error e) :
    lineage w (folders w names) = .error e := by
  simpa only [hp] using lineage_folders w given names

theorem lineage_borrowed (hp : planned w given (folderOf w names) = .ok .borrow) :
    lineage w (folders w names) = lineage w (folders w (folderOf w names).tail) := by
  simpa only [hp] using lineage_folders w given names

theorem lineage_merged (hp : planned w given (folderOf w names) = .ok (.merge own)) :
    lineage w (folders w names) = (lineage w (folders w (folderOf w names).tail)).map (·.extend own) := by
  simpa only [hp] using lineage_folders w given names

theorem lineage_fresh (hp : planned w given (folderOf w names) = .ok (.fresh own)) :
    own = given ∧ lineage w (folders w names) = .ok {} ∨
      lineage w (folders w names) = .ok { top := some own } := by
  simpa only [hp] using lineage_folders w given names

end Plans

/-- A lookup gives the codes of a fold behind the word of the command line. If it changes the standard
list, that does not show behind the same word. -/
def Folded (given : Settings) (l : Ledger) (fold : Except ConfigFault (Text → Prop)) :
    Except ConfigFault Config → Prop
  | .error e => fold = .error e
  | .ok c => ∃ codes, fold = .ok codes ∧ l.codes c.codes = given.adjust codes ∧
    given.adjust (l.codes .standard) = given.adjust Convention.pep257.codes.has

/-- A list that is made from settings alone, with the word of the command line. -/
theorem codes_make (given own : Settings) {origin : Origin}
    (hstd : l.codes .standard = Convention.pep257.codes.has) (hne : origin ≠ .standard)
    (hq : st = .standard →
      settle given own Convention.pep257.codes.has = given.adjust Convention.pep257.codes.has)
    {made : Origin × Ledger} (hm : l.make origin own st = made) :
    (made.2.adjust made.1 given).codes made.1 =
        settle given own ((st.base.map CodeSet.has).getD Convention.pep257.codes.has) ∧
      given.adjust ((made.2.adjust made.1 given).codes .standard) =
        given.adjust Convention.pep257.codes.has := by
  subst hm
  cases st with
  | standard =>
    simp only [Ledger.make_standard,Ledger.codes_adjust,if_true,hstd]
    exact ⟨rfl,(adjust_settle ..).trans (hq rfl)⟩
  | copied =>
    simp [Ledger.make,Start.list,Start.base,hne.symm,hstd,settle]
  | given codes =>
    simp [Ledger.make,Start.list,Start.base,hne.symm,hstd,settle]

theorem inherit_ok (hs : own.start = .ok st) (codes : Text → Prop) :
    own.inherit codes = .ok (own.adjust ((st.base.map CodeSet.has).getD codes)) := by
  rw [Settings.inherit,Settings.base_eq,hs]
  rfl

theorem inherit_error {e : ConfigFault} (hs : own.start = .error e) (codes : Text → Prop) :
    own.inherit codes = .error e := by
  rw [Settings.inherit,Settings.base_eq,hs]
  rfl

theorem settle_quiet (hq : own.isQuiet = true) (hs : own.start = .ok .standard) (codes : Text → Prop) :
    settle given own codes = given.adjust codes := by
  simp only [Settings.isQuiet,Bool.or_eq_true,Bool.and_eq_true,List.isEmpty_iff] at hq
  rcases hq with hx | ⟨ha,hi⟩
  · exact absurd rfl (start_ne_standard hx hs)
  · rw [settle,Settings.adjust_of_empty ha hi]

theorem Looked.folded (ho : o.codes = none) (hg : given.start = .ok .standard)
    (h₀ : ∀ folder, l.known folder = none) (hstd : l.codes .standard = Convention.pep257.codes.has)
    (hq : ∀ lin, lineage w (folders w names) = .ok lin → lin.isQuiet = true)
    (h : Looked w given o l names r l') :
    Folded given l' (lineage w (folders w names) >>= Lineage.codes) r := by
  induction h with
  | known hk => simp [h₀] at hk
  | @unread names e hk hp =>
    rw [lineage_unread hp]
    rfl
  | @borrowed l' names c hk hp ha ih =>
    rw [lineage_borrowed hp] at hq ⊢
    obtain ⟨codes,hx,hc,hs⟩ := ih hq
    rw [close_closed ho (by rw [hc,Settings.adjust_adjust])]
    exact ⟨codes,hx,by rwa [codes_overriddenBy ho],hs⟩
  | @refused names own e hk hp hs =>
    rcases lineage_fresh hp with ⟨rfl,-⟩ | hlin
    · rw [hg] at hs
      cases hs
    · rw [hlin]
      exact (Lineage.codes_top own).trans (inherit_error hs _)
  | @fresh names own st hk hp hs =>
    have hclose (c : Config) (l : Ledger) : (close given o l (folderOf w names) c).codes =
        (l.adjust c.codes given).codes := by rw [close,codes_overriddenBy ho,Ledger.codes_keep]
    simp only [Folded,hclose,codes_overriddenBy ho,created]
    rcases lineage_fresh hp with ⟨rfl,hlin⟩ | hlin
    · obtain rfl : st = .standard := Except.ok.inj (hs.symm.trans hg)
      obtain ⟨hc,hs'⟩ := codes_make own own hstd (Origin.noConfusion : Origin.folder (folderOf w names) ≠ _)
        (fun _ => own.adjust_adjust _) rfl
      exact ⟨_,by rw [hlin]; rfl,hc.trans (own.adjust_adjust _),hs'⟩
    · have hquiet : own.isQuiet = true := hq _ hlin
      obtain ⟨hc,hs'⟩ := codes_make given own hstd (Origin.noConfusion : Origin.folder (folderOf w names) ≠ _)
        (fun hst => settle_quiet hquiet (hst ▸ hs) _) rfl
      refine ⟨_,?_,hc,hs'⟩
      rw [hlin]
      exact (Lineage.codes_top own).trans (inherit_ok hs _)
  | @stopped l' names p e hk hp hb ha ih =>
    rcases hb with rfl | ⟨own,rfl⟩
    · rw [lineage_borrowed hp] at hq ⊢
      exact ih hq
    · rw [lineage_merged hp] at hq ⊢
      have hx : _ = Except.error e := ih (Lineage.isQuiet_of_extend hq)
      rw [Lineage.bind_map_extend,hx]
      rfl
  | @unmerged l' names own a e hk hp ha hs ih =>
    rw [lineage_merged hp] at hq ⊢
    obtain ⟨codes,hx,-⟩ := ih (Lineage.isQuiet_of_extend hq)
    rw [Lineage.bind_map_extend,hx]
    exact inherit_error hs codes
  | @merged l' names own a st hk hp ha hs ih =>
    rw [lineage_merged hp] at hq ⊢
    obtain ⟨codes,hx,hc,hs'⟩ := ih (Lineage.isQuiet_of_extend hq)
    have hcodes : (Lookup.merged (.folder (folderOf w names)) a own).codes = .folder (folderOf w names) := rfl
    rw [close_put ho hcodes,Lineage.bind_map_extend,hx]
    refine ⟨_,inherit_ok hs codes,?_,by simpa using hs'⟩
    rw [codes_overriddenBy ho,hcodes,Ledger.codes_keep,Ledger.codes_put,if_pos rfl]
    -- The codes from above have the word of the command line behind them already.
    cases st with
    | standard =>
      rw [hc]
      exact Settings.adjust_congr (given.adjust_adjust codes) own
    | copied => exact Settings.adjust_congr hs' own
    | given codes => rfl

/-! ### The only configuration file -/

/-- The configuration in the only file, by the settings that count where there is one. -/
theorem once_made {file : Text} (ho : o.codes = none)
    (hstd : l.codes .standard = Convention.pep257.codes.has) (hx : w.files.exists? file = true)
    (hn : named w given file = .ok own) (hs : own.start = .ok st)
    (hq : st = .standard →
      settle given own Convention.pep257.codes.has = given.adjust Convention.pep257.codes.has) :
    ∃ c l', once w given o file l = .ok (c, l') ∧ l'.codes c.codes =
        settle given own ((st.base.map CodeSet.has).getD Convention.pep257.codes.has) ∧
      given.adjust (l'.codes .standard) = given.adjust Convention.pep257.codes.has := by
  refine ⟨_,_,once_ok hx hn hs,?_⟩
  rw [codes_overriddenBy ho]
  exact codes_make given own hstd Origin.noConfusion hq rfl

theorem once_folded {file : Text} (ho : o.codes = none) (hg : given.start = .ok .standard)
    (hstd : l.codes .standard = Convention.pep257.codes.has) (hx : w.files.exists? file = true)
    (hq : ∀ lin, only w file = .ok lin → lin.isQuiet = true)
    (hl : ∀ c l', once w given o file l = .ok (c, l') → l₁ = l') :
    Folded given l₁ (only w file >>= Lineage.codes) ((once w given o file l).map Prod.fst) := by
  cases hsettings : (Config.settingsIn w file).run [] with
  | error e log =>
    have hnamed : named w given file = .error e := by simp only [named,hsettings]
    rw [once_error hx (.inl hnamed),only,hsettings]
    rfl
  | ok found log =>
    obtain ⟨found,inherits⟩ := found
    have hnamed : named w given file = .ok (found.getD given) := by simp only [named,hsettings]
    have honly : only w file = .ok { top := found } := by simp only [only,hsettings]
    rw [honly]
    cases found with
    | none =>
      obtain ⟨c,l',honce,hc,hs⟩ := once_made ho hstd hx hnamed hg fun _ => given.adjust_adjust _
      rw [honce,hl c l' honce]
      exact ⟨_,rfl,hc.trans (given.adjust_adjust _),hs⟩
    | some own =>
      have hquiet : own.isQuiet = true := hq { top := some own } honly
      have hfold := Lineage.codes_top own
      cases hst : own.start with
      | error e =>
        rw [once_error hx (.inr ⟨own,hnamed,hst⟩)]
        exact hfold.trans (inherit_error hst _)
      | ok st =>
        obtain ⟨c,l',honce,hc,hs⟩ := once_made ho hstd hx hnamed hst fun hst' =>
          settle_quiet hquiet (hst' ▸ hst) _
        rw [honce,hl c l' honce]
        exact ⟨_,hfold.trans (inherit_ok hst _),hc,hs⟩

/-! ### First answers -/

theorem config_folded {s : Session} (h : Settled given o run s) (ho : o.codes = none)
    (hg : given.start = .ok .standard) (hk : s.known = []) (hn : s.knownNamed = none)
    (hstd : s.ledger.codes .standard = Convention.pep257.codes.has) (location : Text)
    (hq : ∀ lin, reached w run location = .ok lin → lin.isQuiet = true) :
    ∃ r s', Gives (config w location) s r s' ∧
      Folded given s'.ledger (reached w run location >>= Lineage.codes) r := by
  unfold reached at hq ⊢
  cases hf : run.config with
  | none =>
    simp only [hf] at hq ⊢
    have h₀ : ∀ folder, s.ledger.known folder = none := fun folder => by simp [Session.ledger,hk]
    obtain ⟨r,s',hgives,-,hl⟩ := config_looked (w := w) h hf location
    exact ⟨r,s',hgives,hl.folded ho hg h₀ hstd hq⟩
  | some file =>
    simp only [hf] at hq ⊢
    have honce : Once w given o run file s.ledger s := ⟨h,.inl ⟨hn,rfl⟩⟩
    obtain ⟨s',hgives,-,hl⟩ := honce.config hf location
    refine ⟨_,s',hgives,?_⟩
    by_cases hx : w.files.exists? file = true
    · rw [if_pos hx] at hq ⊢
      exact once_folded ho hg hstd hx hq hl
    · rw [if_neg hx,once,if_neg hx]
      rfl

theorem start_of_not_exclusive (h : given.isExclusive = false) : given.start = .ok .standard := by
  simp only [Settings.isExclusive,Bool.or_eq_false_iff,Option.isSome_eq_false_iff,
    Option.isNone_iff_eq_none] at h
  rw [Settings.start,h.1.1,h.1.2,h.2]

/-- The first answer of a session about a location has the codes of the fold over the configuration files
that count for it, with what the command line adds and without what it takes away, if the command line
names no codes to start from and the topmost file does not change the standard list. In a folder that
exists, these are the files from there up to the root. -/
theorem answer_first {words : List Text} {s : Session} (hstart : Session.start words {} = .ok o s)
    (hgiven : s.settings = some given) (hrun : s.run = some run) (hx : given.isExclusive = false)
    (location : Text) (hq : ∀ lin, reached w run location = .ok lin → lin.isQuiet = true) :
    (answer w location s).map Answer.codes =
        (reached w run location >>= Lineage.codes).map given.adjust ∧
      (w.files.isFolder (locationOf (folderOf w (namesOf location))) = true →
        folders w (namesOf location) = (folderOf w (namesOf location)).tails) := by
  refine ⟨?_,folders_folderOf (proper_namesOf location)⟩
  obtain ⟨given',run',hb⟩ := start_ok hstart
  obtain rfl : given' = given := Option.some.inj (hb.settled.settings.symm.trans hgiven)
  obtain rfl : run' = run := Option.some.inj (hb.settled.run.symm.trans hrun)
  have ho : o.codes = none := by rw [hb.listed.origin,hx]; rfl
  obtain ⟨r,s',hgives,hfold⟩ := config_folded hb.settled ho (start_of_not_exclusive hx) hb.known
    hb.knownNamed hb.listed.standard location hq
  rw [answer_of_gives hgives]
  cases r with
  | error e =>
    rw [show _ = Except.error e from hfold]
    rfl
  | ok c =>
    obtain ⟨codes,hcodes,hc,-⟩ := hfold
    rw [hcodes]
    exact congrArg Except.ok hc

/-- A folder whose file names codes and inherits nothing, and two folders down another one whose file
adds a code. -/
def nested : Workspace where
  files :=
    { root := .folder "a" (.folder "b" (.folder "c" (.file "tox.ini" ("[pydocstyle]\nadd-select=D203\n".toList.map
            fun c => c.toNat.toUInt8) .empty) .empty)
          (.file "setup.cfg" ("[pydocstyle]\ninherit=false\nselect=D1\nadd-ignore=D107\n".toList.map
            fun c => c.toNat.toUInt8) .empty)) .empty
      working := [] }

theorem answer_first_nested : ∃ o s given run, Session.start ["--add-ignore=D100"] {} = .ok o s ∧
    s.settings = some given ∧ s.run = some run ∧ given.isExclusive = false ∧
    (∀ lin, reached nested run "/a/b/c" = .ok lin → lin.isQuiet = true) ∧
    (answer nested "/a/b/c" s).map Answer.codes =
      (reached nested run "/a/b/c" >>= Lineage.codes).map given.adjust ∧
    folders nested (namesOf "/a/b/c") = (folderOf nested (namesOf "/a/b/c")).tails := by
  have hq : ∀ lin, reached nested {} "/a/b/c" = .ok lin → lin.isQuiet = true := by
    have h : (reached nested {} "/a/b/c").toOption.all Lineage.isQuiet = true := by decide +kernel
    intro lin hl
    rw [hl] at h
    exact h
  obtain ⟨o,s,hstart,hs⟩ := @exists_of_opens ["--add-ignore=D100"]
    (fun s => s.settings.any (!·.isExclusive) && s.run == some {}) (by decide +kernel)
  simp only [Bool.and_eq_true,Option.any_eq_true,Bool.not_eq_true',beq_iff_eq] at hs
  obtain ⟨⟨given,hgiven,hx⟩,hrun⟩ := hs
  obtain ⟨hcodes,htails⟩ := answer_first hstart hgiven hrun hx "/a/b/c" hq
  exact ⟨o,s,given,{},hstart,hgiven,hrun,hx,hq,hcodes,htails (by decide +kernel)⟩

end Lookup

end DocLint
