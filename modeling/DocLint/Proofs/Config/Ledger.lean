import DocLint.Config.Session

/-!
What lookups of configurations do, without their log. A ledger holds the codes in each list, in no
order, and the configurations that are kept for folders; a lookup reads off it and writes to it.
-/

set_option autoImplicit false

namespace DocLint

open Toml (Value)

def CodeSet.has (codes : CodeSet) (code : Text) : Prop := code ∈ codes

namespace Settings

def adjust (s : Settings) (codes : Text → Prop) (code : Text) : Prop :=
  (codes code ∨ code ∈ s.addSelect) ∧ code ∉ s.addIgnore

theorem adjust_adjust (s : Settings) (codes : Text → Prop) :
    s.adjust (s.adjust codes) = s.adjust codes := by
  funext code
  simp only [adjust,eq_iff_iff]
  grind

theorem has_revise (s : Settings) (codes : CodeSet) :
    CodeSet.has (CodeSet.revise s.addSelect s.addIgnore codes) = s.adjust codes.has := by
  funext code
  simp only [CodeSet.has,CodeSet.revise,CodeSet.without,CodeSet.union,adjust,List.mem_filter,
    List.mem_append,Bool.not_eq_true',List.contains_eq_mem,decide_eq_false_iff_not,eq_iff_iff]
  grind

end Settings

structure Ledger where
  codes : Origin → Text → Prop
  known : List Text → Option Config

def Session.ledger (s : Session) : Ledger where
  codes := fun origin => (s.codesAt origin).has
  known := fun folder => s.known.lookup folder

def Start.list (l : Ledger) : Start → Option (Text → Prop)
  | .standard => none
  | .copied => some (l.codes .standard)
  | .given codes => some codes.has

namespace Ledger

def put (l : Ledger) (origin : Origin) (codes : Text → Prop) : Ledger where
  codes := fun o => if o = origin then codes else l.codes o
  known := l.known

def adjust (l : Ledger) (origin : Origin) (s : Settings) : Ledger :=
  l.put origin (s.adjust (l.codes origin))

def keep (l : Ledger) (folder : List Text) (c : Config) : Ledger where
  codes := l.codes
  known := fun f => if f = folder then some c else l.known f

/-- The list of a folder, made from settings: a new one, or the standard one, which is changed. -/
def make (l : Ledger) (origin : Origin) (s : Settings) (start : Start) : Origin × Ledger :=
  match start.list l with
  | none => (.standard, l.adjust .standard s)
  | some codes => (origin, (l.put origin codes).adjust origin s)

theorem make_standard (l : Ledger) (origin : Origin) (s : Settings) :
    l.make origin s .standard = (.standard, l.adjust .standard s) := rfl

theorem make_new {l : Ledger} {origin : Origin} {s : Settings} {start : Start} {codes : Text → Prop}
    (h : start.list l = some codes) :
    l.make origin s start = (origin, (l.put origin codes).adjust origin s) := by
  simp only [make,h]

@[simp] theorem codes_put (l : Ledger) (origin p : Origin) (codes : Text → Prop) :
    (l.put origin codes).codes p = if p = origin then codes else l.codes p := rfl

@[simp] theorem known_put (l : Ledger) (origin : Origin) (codes : Text → Prop) :
    (l.put origin codes).known = l.known := rfl

@[simp] theorem codes_adjust (l : Ledger) (origin p : Origin) (s : Settings) :
    (l.adjust origin s).codes p = if p = origin then s.adjust (l.codes origin) else l.codes p := rfl

@[simp] theorem known_adjust (l : Ledger) (origin : Origin) (s : Settings) :
    (l.adjust origin s).known = l.known := rfl

@[simp] theorem codes_keep (l : Ledger) (folder : List Text) (c : Config) :
    (l.keep folder c).codes = l.codes := rfl

@[simp] theorem known_keep (l : Ledger) (folder f : List Text) (c : Config) :
    (l.keep folder c).known f = if f = folder then some c else l.known f := rfl

end Ledger

namespace Session

theorem lookup_filter_ne {α β : Type} [DecidableEq α] [BEq α] [LawfulBEq α] {k j : α} (h : j ≠ k)
    (xs : List (α × β)) : (xs.filter fun x => x.1 ≠ k).lookup j = xs.lookup j := by
  induction xs with
  | nil => rfl
  | cons x xs ih =>
    obtain ⟨a,b⟩ := x
    by_cases ha : a = k
    · have hj : (j == k) = false := by simpa using h
      simp only [List.filter_cons,ha,ne_eq,not_true_eq_false,decide_false,Bool.false_eq_true,if_false,
        List.lookup_cons,hj]
      exact ih
    · simp only [List.filter_cons,ha,ne_eq,not_false_eq_true,decide_true,if_true,List.lookup_cons]
      rw [← ih]

theorem codesAt_setCodes (s : Session) (origin o : Origin) (codes : CodeSet) :
    (s.setCodes origin codes).codesAt o = if o = origin then codes else s.codesAt o := by
  by_cases h : o = origin
  · subst h
    simp [codesAt,setCodes]
  · have hl := lookup_filter_ne h s.lists
    have hb : (o == origin) = false := by simpa using h
    simp only [codesAt,setCodes,List.lookup_cons,hb,hl,h,if_false]

theorem ledger_setCodes (s : Session) (origin : Origin) (codes : CodeSet) :
    (s.setCodes origin codes).ledger = s.ledger.put origin codes.has := by
  simp only [ledger,Ledger.put,codesAt_setCodes]
  congr 1
  funext o
  split <;> rfl

theorem ledger_keep (s : Session) (folder : List Text) (c : Config) :
    ({ s with known := (folder, c) :: s.known.filter fun k => k.1 ≠ folder } : Session).ledger =
      s.ledger.keep folder c := by
  simp only [ledger,Ledger.keep]
  congr 1
  funext f
  by_cases h : f = folder
  · simp [h]
  · have hb : (f == folder) = false := by simpa using h
    simp only [List.lookup_cons,hb,h,if_false]
    exact lookup_filter_ne h s.known

end Session

namespace Lookup

/-- What the configuration of a folder is made from, where the command line has the given settings. -/
def planned (w : Workspace) (given : Settings) (folder : List Text) : Except ConfigFault Plan :=
  match (Config.fileIn? w (locationOf folder)).run [] with
  | .error e _ => .error e
  | .ok none _ => .ok (if folder.isEmpty then .fresh given else .borrow)
  | .ok (some file) _ =>
    match (Config.settingsIn w file).run [] with
    | .error e _ => .error e
    | .ok (own, inherits) _ =>
      .ok (if !folder.isEmpty && inherits then .merge (own.getD {}) else .fresh (own.getD {}))

/-- The folder that counts for some names: what is no folder is taken for a file. -/
def folderOf (w : Workspace) : List Text → List Text
  | [] => []
  | n :: up => if w.files.isFolder (locationOf (n :: up)) then n :: up else up

variable {w : Workspace} {given : Settings} {o : Override}

/-- The ledger after the command line had its word on a configuration, which is then kept. -/
def close (given : Settings) (o : Override) (l : Ledger) (folder : List Text) (c : Config) : Ledger :=
  (l.adjust (overriddenBy o c).codes given).keep folder (overriddenBy o c)

/-- The lookups: what is given for some names, and how that changes the ledger. -/
inductive Looked (w : Workspace) (given : Settings) (o : Override) :
    Ledger → List Text → Except ConfigFault Config → Ledger → Prop where
  | known {l : Ledger} {names : List Text} {c : Config} (hk : l.known (folderOf w names) = some c) :
    Looked w given o l names (.ok (overriddenBy o c)) (close given o l (folderOf w names) c)
  | unread {l : Ledger} {names : List Text} {e : ConfigFault} (hk : l.known (folderOf w names) = none)
    (hp : planned w given (folderOf w names) = .error e) : Looked w given o l names (.error e) l
  | borrowed {l l' : Ledger} {names : List Text} {c : Config} (hk : l.known (folderOf w names) = none)
    (hp : planned w given (folderOf w names) = .ok .borrow)
    (ha : Looked w given o l (folderOf w names).tail (.ok c) l') :
    Looked w given o l names (.ok (overriddenBy o c)) (close given o l' (folderOf w names) c)
  | refused {l : Ledger} {names : List Text} {own : Settings} {e : ConfigFault}
    (hk : l.known (folderOf w names) = none) (hp : planned w given (folderOf w names) = .ok (.fresh own))
    (hs : own.start = .error e) : Looked w given o l names (.error e) l
  | fresh {l : Ledger} {names : List Text} {own : Settings} {st : Start}
    (hk : l.known (folderOf w names) = none) (hp : planned w given (folderOf w names) = .ok (.fresh own))
    (hs : own.start = .ok st) :
    Looked w given o l names
      (.ok (overriddenBy o (created (l.make (.folder (folderOf w names)) own st).1 own)))
      (close given o (l.make (.folder (folderOf w names)) own st).2 (folderOf w names)
        (created (l.make (.folder (folderOf w names)) own st).1 own))
  | stopped {l l' : Ledger} {names : List Text} {p : Plan} {e : ConfigFault}
    (hk : l.known (folderOf w names) = none) (hp : planned w given (folderOf w names) = .ok p)
    (hb : p = .borrow ∨ ∃ own, p = .merge own)
    (ha : Looked w given o l (folderOf w names).tail (.error e) l') :
    Looked w given o l names (.error e) l'
  | unmerged {l l' : Ledger} {names : List Text} {own : Settings} {a : Config} {e : ConfigFault}
    (hk : l.known (folderOf w names) = none) (hp : planned w given (folderOf w names) = .ok (.merge own))
    (ha : Looked w given o l (folderOf w names).tail (.ok a) l') (hs : own.start = .error e) :
    Looked w given o l names (.error e) l'
  | merged {l l' : Ledger} {names : List Text} {own : Settings} {a : Config} {st : Start}
    (hk : l.known (folderOf w names) = none) (hp : planned w given (folderOf w names) = .ok (.merge own))
    (ha : Looked w given o l (folderOf w names).tail (.ok a) l') (hs : own.start = .ok st) :
    Looked w given o l names
      (.ok (overriddenBy o (merged (.folder (folderOf w names)) a own)))
      (close given o ((l'.put (.folder (folderOf w names)) ((st.list l').getD (l'.codes a.codes))).adjust
        (.folder (folderOf w names)) own) (folderOf w names) (merged (.folder (folderOf w names)) a own))

/-! ### The steps of a session -/

structure Settled (given : Settings) (o : Override) (run : RunOptions) (s : Session) : Prop where
  settings : s.settings = some given
  override : s.override = some o
  run : s.run = some run

variable {α β : Type} {run : RunOptions} {s : Session} {own : Settings} {origin : Origin} {st : Start}
  {folder : List Text} {c : Config} {e : ConfigFault}

theorem Settled.setCodes (h : Settled given o run s) (codes : CodeSet) :
    Settled given o run (s.setCodes origin codes) := ⟨h.settings,h.override,h.run⟩

theorem Settled.record (h : Settled given o run s) (lines : List LogLine) :
    Settled given o run (s.record lines) := ⟨h.settings,h.override,h.run⟩

theorem bind_ok {r : Lookup α} {f : α → Lookup β} {a : α} {s s' : Session} (h : r s = .ok a s') :
    (r >>= f) s = f a s' := by
  change EStateM.bind r f s = _
  simp only [EStateM.bind,h]

theorem bind_error {r : Lookup α} {f : α → Lookup β} {s s' : Session} (h : r s = .error e s') :
    (r >>= f) s = .error e s' := by
  change EStateM.bind r f s = _
  simp only [EStateM.bind,h]

theorem revise_ok (h : Settled given o run s) :
    ∃ s', revise origin own s = .ok () s' ∧ s'.ledger = s.ledger.adjust origin own ∧
      Settled given o run s' := by
  refine ⟨_,rfl,?_,h.setCodes _⟩
  rw [Session.ledger_setCodes,Settings.has_revise]
  rfl

theorem startingCodes_ok (hs : own.start = .ok st) :
    startingCodes own s = .ok (s.newCodes st) s := by
  have h : s.startingCodes own = .ok (s.newCodes st) := by
    rw [Session.startingCodes,hs]
    rfl
  refine (bind_ok rfl).trans ?_
  simp only [h]
  rfl

theorem has_newCodes (st : Start) : (s.newCodes st).map CodeSet.has = st.list s.ledger := by
  cases st <;> rfl

theorem startingCodes_error (hs : own.start = .error e) : startingCodes own s = .error e s := by
  have h : s.startingCodes own = .error e := by
    rw [Session.startingCodes,hs]
    rfl
  refine (bind_ok rfl).trans ?_
  simp only [h]
  rfl

theorem makeCodes_ok (h : Settled given o run s) (hs : own.start = .ok st) :
    ∃ s', makeCodes origin own s = .ok (s.ledger.make origin own st).1 s' ∧
      s'.ledger = (s.ledger.make origin own st).2 ∧ Settled given o run s' := by
  unfold makeCodes Ledger.make
  rw [← has_newCodes,bind_ok (startingCodes_ok hs)]
  cases s.newCodes st with
  | none =>
    obtain ⟨s',hr,hl',hs'⟩ := @revise_ok _ _ _ _ own .standard h
    exact ⟨s',bind_ok hr,hl',hs'⟩
  | some codes =>
    obtain ⟨s',hr,hl',hs'⟩ := @revise_ok _ _ _ _ own origin (h.setCodes codes)
    refine ⟨s',(bind_ok rfl).trans (bind_ok hr),?_,hs'⟩
    rw [hl',Session.ledger_setCodes]
    rfl

theorem finish_ok (h : Settled given o run s) :
    ∃ s', finish c s = .ok (overriddenBy o c) s' ∧
      s'.ledger = s.ledger.adjust (overriddenBy o c).codes given ∧ Settled given o run s' := by
  obtain ⟨s',hr,hl,hs'⟩ := @revise_ok _ _ _ _ given (overriddenBy o c).codes h
  refine ⟨s',(bind_ok rfl).trans ?_,hl,hs'⟩
  have hset : settings s = .ok given s := by
    refine (bind_ok rfl).trans ?_
    simp only [h.settings]
    rfl
  simp only [h.override]
  exact (bind_ok hset).trans (bind_ok hr)

theorem merge_ok {above : Config} (h : Settled given o run s) (hs : own.start = .ok st) :
    ∃ s', merge origin above own s = .ok (merged origin above own) s' ∧
      s'.ledger = (s.ledger.put origin ((st.list s.ledger).getD (s.ledger.codes above.codes))).adjust
        origin own ∧ Settled given o run s' := by
  obtain ⟨s',hr,hl,hs'⟩ := @revise_ok _ _ _ _ own origin
    (h.setCodes ((s.newCodes st).getD (s.codesAt above.codes)))
  refine ⟨s',(bind_ok (startingCodes_ok hs)).trans ((bind_ok rfl).trans (bind_ok hr)),?_,hs'⟩
  rw [hl,Session.ledger_setCodes,← has_newCodes]
  cases s.newCodes st <;> rfl

theorem create_ok (h : Settled given o run s) (hs : own.start = .ok st) :
    ∃ s', create origin own s = .ok (created (s.ledger.make origin own st).1 own) s' ∧
      s'.ledger = (s.ledger.make origin own st).2 ∧ Settled given o run s' := by
  obtain ⟨s',hr,hl,hs'⟩ := @makeCodes_ok _ _ _ _ own origin st h hs
  exact ⟨s',bind_ok hr,hl,hs'⟩

theorem atFolder_ok {above : Lookup Config} {s' : Session}
    (hf : ofFolder w folder above (s.record [⟨.debug, "No config file specified, discovering."⟩]) =
      .ok c s') (h : Settled given o run s') :
    ∃ s'', atFolder w folder above s = .ok (overriddenBy o c) s'' ∧
      s''.ledger = close given o s'.ledger folder c ∧ Settled given o run s'' := by
  obtain ⟨s₁,hr,hl,hs₁⟩ := @finish_ok _ _ _ _ c h
  refine ⟨_,(bind_ok rfl).trans ((bind_ok hf).trans ((bind_ok hr).trans rfl)),?_,
    hs₁.settings,hs₁.override,hs₁.run⟩
  rw [Session.ledger_keep,hl]
  rfl

theorem atFolder_error {above : Lookup Config} {s' : Session}
    (hf : ofFolder w folder above (s.record [⟨.debug, "No config file specified, discovering."⟩]) =
      .error e s') : atFolder w folder above s = .error e s' :=
  (bind_ok rfl).trans (bind_error hf)

theorem ofLogged_ok {x : Logged ConfigFault α} {a : α} {lines : List LogLine}
    (h : x.run [] = .ok a lines) : ofLogged x s = .ok a (s.record lines) := by
  simp only [ofLogged,h]

theorem ofLogged_error {x : Logged ConfigFault α} {lines : List LogLine}
    (h : x.run [] = .error e lines) : ofLogged x s = .error e (s.record lines) := by
  simp only [ofLogged,h]

theorem record_record (lines more : List LogLine) :
    (s.record lines).record more = s.record (lines ++ more) := by
  simp [Session.record]

theorem ofFolder_known {above : Lookup Config} (hk : s.known.lookup folder = some c) :
    ofFolder w folder above s = .ok c s := by
  refine (bind_ok rfl).trans ?_
  simp only [hk]
  rfl

theorem ofFolder_unknown {above : Lookup Config} (hk : s.known.lookup folder = none) :
    ofFolder w folder above s = (plan w folder >>= follow folder above) s := by
  refine (bind_ok rfl).trans ?_
  simp only [hk]

theorem settings_ok (h : Settled given o run s) : settings s = .ok given s := by
  refine (bind_ok rfl).trans ?_
  simp only [h.settings]
  rfl

theorem plan_error (hp : planned w given folder = .error e) :
    ∃ lines, plan w folder s = .error e (s.record lines) := by
  unfold planned at hp
  split at hp
  · rename_i lines hf
    obtain rfl := Except.error.inj hp
    exact ⟨lines,bind_error (ofLogged_error hf)⟩
  · cases hp
  · rename_i file lines hf
    split at hp
    · rename_i more hs
      obtain rfl := Except.error.inj hp
      refine ⟨lines ++ more,(bind_ok (ofLogged_ok hf)).trans ?_⟩
      rw [← record_record]
      exact bind_error (ofLogged_error hs)
    · cases hp

theorem plan_ok {p : Plan} (h : Settled given o run s) (hp : planned w given folder = .ok p) :
    ∃ lines, plan w folder s = .ok p (s.record lines) := by
  unfold planned at hp
  split at hp
  · cases hp
  · rename_i lines hf
    obtain rfl := Except.ok.inj hp
    refine ⟨lines,(bind_ok (ofLogged_ok hf)).trans ?_⟩
    cases hn : folder.isEmpty with
    | false => rfl
    | true =>
      simp only [if_true]
      exact bind_ok (settings_ok (h.record lines))
  · rename_i file lines hf
    split at hp
    · cases hp
    · rename_i own inherits more hs
      obtain rfl := Except.ok.inj hp
      refine ⟨lines ++ more,(bind_ok (ofLogged_ok hf)).trans ((bind_ok (ofLogged_ok hs)).trans ?_)⟩
      rw [record_record]
      rfl

theorem planned_root {p : Plan} (hp : planned w given [] = .ok p) : ∃ own, p = .fresh own := by
  unfold planned at hp
  split at hp
  · cases hp
  · exact ⟨given,(Except.ok.inj hp).symm⟩
  · split at hp
    · cases hp
    · exact ⟨_,(Except.ok.inj hp).symm⟩

def Gives (r : Lookup α) (s : Session) : Except ConfigFault α → Session → Prop
  | .ok a, s' => r s = .ok a s'
  | .error e, s' => r s = .error e s'

variable {above : Lookup Config} {names : List Text}

theorem follow_looked {p : Plan} (h : Settled given o run s)
    (hk : s.known.lookup (folderOf w names) = none)
    (hp : planned w given (folderOf w names) = .ok p)
    (habove : folderOf w names ≠ [] → ∃ r s', Gives above s r s' ∧ Settled given o run s' ∧
      Looked w given o s.ledger (folderOf w names).tail r s'.ledger) :
    ∃ r s', Gives (follow (folderOf w names) above p) s r s' ∧ Settled given o run s' ∧
      ∀ l, l = (match r with
          | .ok c => close given o s'.ledger (folderOf w names) c
          | .error _ => s'.ledger) →
        Looked w given o s.ledger names (r.map (overriddenBy o)) l := by
  have hroot : (∀ own, p ≠ .fresh own) → folderOf w names ≠ [] := fun hne hnil => by
    rw [hnil] at hp
    obtain ⟨own,rfl⟩ := planned_root hp
    exact hne own rfl
  cases p with
  | borrow =>
    obtain ⟨r,s',hg,hs',hl⟩ := habove (hroot (by simp))
    refine ⟨r,s',hg,hs',?_⟩
    rintro l rfl
    cases r with
    | ok c => exact .borrowed hk hp hl
    | error e => exact .stopped hk hp (.inl rfl) hl
  | fresh own =>
    cases hst : own.start with
    | ok st =>
      obtain ⟨s',hc,hl,hs'⟩ := @create_ok _ _ _ _ own (.folder (folderOf w names)) st h hst
      refine ⟨.ok _,s',hc,hs',?_⟩
      rintro l rfl
      rw [hl]
      exact .fresh hk hp hst
    | error e =>
      refine ⟨.error e,s,bind_error (bind_error (startingCodes_error hst)),h,?_⟩
      rintro l rfl
      exact .refused hk hp hst
  | merge own =>
    obtain ⟨r,s',hg,hs',hl⟩ := habove (hroot (by simp))
    cases r with
    | error e =>
      refine ⟨.error e,s',bind_error hg,hs',?_⟩
      rintro l rfl
      exact .stopped hk hp (.inr ⟨own,rfl⟩) hl
    | ok a =>
      cases hst : own.start with
      | ok st =>
        obtain ⟨s₂,hm,hl₂,hs₂⟩ := @merge_ok _ _ _ _ own (.folder (folderOf w names)) st a hs' hst
        refine ⟨.ok _,s₂,(bind_ok hg).trans hm,hs₂,?_⟩
        rintro l rfl
        rw [hl₂]
        exact .merged hk hp hl hst
      | error e =>
        refine ⟨.error e,s',(bind_ok hg).trans (bind_error (startingCodes_error hst)),hs',?_⟩
        rintro l rfl
        exact .unmerged hk hp hl hst

theorem atFolder_looked (h : Settled given o run s)
    (habove : folderOf w names ≠ [] → ∀ s, Settled given o run s → ∃ r s', Gives above s r s' ∧
      Settled given o run s' ∧ Looked w given o s.ledger (folderOf w names).tail r s'.ledger) :
    ∃ r s', Gives (atFolder w (folderOf w names) above) s r s' ∧ Settled given o run s' ∧
      Looked w given o s.ledger names r s'.ledger := by
  have hlog := h.record [⟨.debug, "No config file specified, discovering."⟩]
  cases hk : s.known.lookup (folderOf w names) with
  | some c =>
    obtain ⟨s',ha,hl,hs'⟩ := atFolder_ok (@ofFolder_known w (s.record _) _ _ above hk) hlog
    refine ⟨.ok _,s',ha,hs',?_⟩
    rw [hl]
    exact .known hk
  | none =>
    have hof := @ofFolder_unknown w
      (s.record [⟨.debug, "No config file specified, discovering."⟩]) (folderOf w names) above hk
    cases hp : planned w given (folderOf w names) with
    | error e =>
      obtain ⟨lines,hpl⟩ := @plan_error w given (s.record _) (folderOf w names) e hp
      exact ⟨.error e,_,atFolder_error (hof.trans (bind_error hpl)),hlog.record lines,.unread hk hp⟩
    | ok p =>
      obtain ⟨lines,hpl⟩ := plan_ok hlog hp
      obtain ⟨r,s',hg,hs',hl⟩ := follow_looked (hlog.record lines) hk hp
        fun hne => habove hne _ (hlog.record lines)
      cases r with
      | error e =>
        exact ⟨.error e,s',atFolder_error (hof.trans ((bind_ok hpl).trans hg)),hs',hl _ rfl⟩
      | ok c =>
        obtain ⟨s₂,ha,hl₂,hs₂⟩ := atFolder_ok (hof.trans ((bind_ok hpl).trans hg)) hs'
        exact ⟨.ok _,s₂,ha,hs₂,hl _ hl₂⟩

theorem discover_eq : discover w names = atFolder w (folderOf w names) (match folderOf w names with
    | [] => throw .unsettled
    | _ :: up => discover w up) := by
  cases names with
  | nil => rfl
  | cons n up =>
    by_cases h : w.files.isFolder (locationOf (n :: up)) = true
    · have hf : folderOf w (n :: up) = n :: up := if_pos h
      rw [hf,discover.eq_def]
      exact if_pos h
    · have hf : folderOf w (n :: up) = up := if_neg h
      rw [hf,discover.eq_def]
      refine (if_neg h).trans ?_
      cases up <;> rfl

theorem folderOf_length (names : List Text) : (folderOf w names).length ≤ names.length := by
  cases names with
  | nil => exact Nat.le_refl _
  | cons n up =>
    by_cases h : w.files.isFolder (locationOf (n :: up)) = true
    · exact Nat.le_of_eq (congrArg List.length (if_pos h))
    · exact Nat.le_succ_of_le (Nat.le_of_eq (congrArg List.length (if_neg h)))

theorem discover_looked (h : Settled given o run s) :
    ∃ r s', Gives (discover w names) s r s' ∧ Settled given o run s' ∧
      Looked w given o s.ledger names r s'.ledger := by
  induction hn : names.length using Nat.strongRecOn generalizing names s with
  | ind n ih =>
    rw [discover_eq]
    refine atFolder_looked h fun hne s hs => ?_
    cases hf : folderOf w names with
    | nil => exact absurd hf hne
    | cons m up =>
      have hl := @folderOf_length w names
      rw [hf,List.length_cons] at hl
      exact ih up.length (by omega) hs rfl

end Lookup

end DocLint
