import Mathlib.Data.List.Forall2
import Mathlib.Data.List.Nodup
import DocLint.Proofs.Config.Course
import DocLint.Proofs.Config.Walk
import DocLint.Resources.Builtin

/-!
The files that a run chooses: those that walks down its targets find, and targets that are no folders,
each with what is said about its own folder when that is looked up.
-/

set_option autoImplicit false

namespace DocLint

def Location.down (location : Text) (r : List Text) : Text := r.foldl Location.join location

theorem Session.chosen_choose (s : Session) (files : List Selected) :
    ({ s with trail := s.trail ++ files.map .file } : Session).chosen = s.chosen ++ files := by
  simp [chosen,List.filterMap_append,List.filterMap_map,Function.comp_def,Event.selected?]

namespace Lookup

open Folder (Listing)

variable {α β : Type} {w : Workspace} {given : Settings} {o : Override} {run : RunOptions}
  {s s' s₀ : Session} {before total total' : List Text} {location place : Text} {x : Selected}

/-- A file is chosen at a place by what is said about a location, in the course of a run that looks up
the locations `total` one after the other: the sieve is that of the location, and the codes are those in
its list at the time of its lookup. -/
def Picked [Resources] (w : Workspace) (s₀ : Session) (total : List Text) (location place : Text) (x : Selected) : Prop :=
  ∃ before s s' here codes, before ++ [w.files.absolute location] <+: total ∧ Course w s₀ before s ∧
    sieve w location s = .ok (here, codes) s' ∧ sieveAt w s₀ location = .ok here ∧
    x = here.selected codes place

theorem Picked.mono [Resources] (h : Picked w s₀ total location place x) (ht : total <+: total') :
    Picked w s₀ total' location place x := by
  obtain ⟨before,s,s',here,codes,hp,h⟩ := h
  exact ⟨before,s,s',here,codes,hp.trans ht,h⟩

/-- A file of a listing, chosen by what is said about its own folder. -/
def PickedBelow [Resources] (w : Workspace) (s₀ : Session) (total : List Text) (location : Text)
    (found : List Text × Text) : Selected → Prop :=
  Picked w s₀ total (Location.down location found.1)
    (Location.join (Location.down location found.1) found.2)

/-- What a step of a run does: it goes on with the course of the run and chooses files. -/
def Walks [Resources] (w : Workspace) (s₀ : Session) (x : Lookup α) (before : List Text) (s : Session)
    (Q : Except ConfigFault α → List Text → List Selected → Prop) : Prop :=
  ∃ r s' total files, Gives x s r s' ∧ before <+: total ∧ Course w s₀ total s' ∧
    s'.chosen = s.chosen ++ files ∧ (∀ x ∈ files, ∃ location place, Picked w s₀ total location place x) ∧
    Q r total files

section Walks

variable {y : Lookup α} {f : α → Lookup β} {Q : Except ConfigFault α → List Text → List Selected → Prop}
  {Q₁ Q₂ : Except ConfigFault β → List Text → List Selected → Prop}

theorem Walks.bind [Resources] (h : Walks w s₀ y before s Q)
    (hok : ∀ a total files s', Q (.ok a) total files → Course w s₀ total s' →
      Walks w s₀ (f a) total s' fun r total' files' => total <+: total' → Q₁ r total' (files ++ files'))
    (herr : ∀ e total files, Q (.error e) total files → Q₁ (.error e) total files) :
    Walks w s₀ (y >>= f) before s Q₁ := by
  obtain ⟨r,s₁,total,files,hg,hp,hc,hch,hx,hq⟩ := h
  cases r with
  | error e => exact ⟨.error e,s₁,total,files,bind_error hg,hp,hc,hch,hx,herr e total files hq⟩
  | ok a =>
    obtain ⟨r,s₂,total',files',hg',hp',hc',hch',hx',hq'⟩ := hok a total files s₁ hq hc
    refine ⟨r,s₂,total',files ++ files',.bind hg hg',hp.trans hp',hc',?_,?_,hq' hp'⟩
    · rw [hch',hch,List.append_assoc]
    · intro x hmem
      rcases List.mem_append.1 hmem with hmem | hmem
      · obtain ⟨location,place,hpick⟩ := hx x hmem
        exact ⟨location,place,hpick.mono hp'⟩
      · exact hx' x hmem

theorem Walks.imp [Resources] {Q' : Except ConfigFault α → List Text → List Selected → Prop}
    (h : Walks w s₀ y before s Q) (hQ : ∀ r total files, Q r total files → Q' r total files) :
    Walks w s₀ y before s Q' := by
  obtain ⟨r,s₁,total,files,hg,hp,hc,hch,hx,hq⟩ := h
  exact ⟨r,s₁,total,files,hg,hp,hc,hch,hx,hQ r total files hq⟩

end Walks

/-! ### One folder -/

def sieves [Resources] (w : Workspace) (s₀ : Session) (location : Text) (r : List Text) : Except ConfigFault Sieve :=
  sieveAt w s₀ (Location.down location r)

def Follows [Resources] (w : Workspace) (s₀ : Session) (location : Text) (list : Except ConfigFault Listing)
    (r : Except ConfigFault Unit) (total : List Text) (files : List Selected) : Prop :=
  match list with
  | .ok list => r = .ok () ∧ List.Forall₂ (PickedBelow w s₀ total location) list files
  | .error e => r = .error e

theorem chooseIn_walks [Resources] (hb : Begun given o run {} s₀) (h : Course w s₀ before s) (location : Text)
    (inside : Folder) : Walks w s₀ (chooseIn w location inside) before s fun r total files =>
      match sieveAt w s₀ location with
      | .ok here =>
        r = .ok here ∧ List.Forall₂ (PickedBelow w s₀ total location) (inside.taken here) files
      | .error e => r = .error e := by
  obtain ⟨s',hc,hch,hsieve⟩ := h.sieve hb location
  cases hat : sieveAt w s₀ location with
  | error e =>
    simp only [hat] at hsieve
    exact ⟨.error e,s',_,[],bind_error hsieve,List.prefix_append ..,hc,by simp [hch],by simp,rfl⟩
  | ok here =>
    simp only [hat] at hsieve
    obtain ⟨codes,hsieve⟩ := hsieve
    have hpick (place : Text) :
        Picked w s₀ (before ++ [w.files.absolute location]) location place (here.selected codes place) :=
      ⟨before,s,s',here,codes,List.prefix_refl _,h,hsieve,hat,rfl⟩
    refine ⟨.ok here,_,_,(inside.fileNames.filter here.takesFile).map fun name =>
      here.selected codes (Location.join location name),(bind_ok hsieve).trans rfl,
      List.prefix_append ..,hc.choose _,?_,?_,rfl,?_⟩
    · rw [Session.chosen_choose,hch]
    · intro x hx
      obtain ⟨name,-,rfl⟩ := List.mem_map.1 hx
      exact ⟨location,_,hpick _⟩
    · rw [Folder.taken,List.forall₂_map_left_iff,List.forall₂_map_right_iff,List.forall₂_same]
      exact fun name _ => hpick _

section Follows

variable {a b : Except ConfigFault Listing} {r : Except ConfigFault Unit} {files files' : List Selected}
  {e : ConfigFault}

theorem Follows.joined [Resources] (ha : Follows w s₀ location a (.ok ()) total files)
    (hb : Follows w s₀ location b r total' files') (ht : total <+: total') :
    Follows w s₀ location (Folder.joined a b) r total' (files ++ files') := by
  cases a with
  | error e => cases ha
  | ok list =>
    cases b with
    | error e => exact hb
    | ok list' =>
      refine ⟨hb.1,List.rel_append ?_ hb.2⟩
      exact ha.2.imp fun found x hx => hx.mono ht

theorem Follows.joined_error [Resources] (ha : Follows w s₀ location a (.error e) total files) :
    Follows w s₀ location (Folder.joined a b) (.error e) total' files' := by
  cases a with
  | error e' => exact ha
  | ok list => cases ha.1

theorem Walks.joined [Resources] {x y : Lookup Unit} (hx : Walks w s₀ x before s (Follows w s₀ location a))
    (hy : ∀ total s', Course w s₀ total s' → Walks w s₀ y total s' (Follows w s₀ location b)) :
    Walks w s₀ (x >>= fun _ => y) before s (Follows w s₀ location (Folder.joined a b)) :=
  hx.bind (fun _ total _ s' hq hc => (hy total s' hc).imp fun _ _ _ hq' ht => hq.joined hq' ht)
    fun _ _ _ hq => hq.joined_error

theorem Follows.pushed [Resources] {n : Text} (h : Follows w s₀ (Location.join location n) a r total files) :
    Follows w s₀ location (a.map (Folder.pushed n)) r total files := by
  cases a with
  | error e => exact h
  | ok list => exact ⟨h.1,List.forall₂_map_left_iff.2 h.2⟩

end Follows

theorem enter_walks [Resources] (hb : Begun given o run {} s₀) (h : Course w s₀ before s) {location : Text}
    {inside : Folder}
    (hbelow : ∀ before s here, Course w s₀ before s →
      Walks w s₀ (chooseBelow w location here inside) before s
        (Follows w s₀ location (inside.beneath (sieves w s₀ location) here))) :
    Walks w s₀ (chooseIn w location inside >>= fun here => chooseBelow w location here inside) before s
      (Follows w s₀ location (inside.walk (sieves w s₀ location))) := by
  have hwalk : inside.walk (sieves w s₀ location) =
    inside.entered (sieveAt w s₀ location) (inside.beneath (sieves w s₀ location)) := rfl
  have hin := chooseIn_walks hb h location inside
  rw [hwalk]
  cases hat : sieveAt w s₀ location with
  | error e =>
    simp only [hat] at hin
    rw [Folder.entered_error]
    refine hin.bind (fun here total files s' hq => ?_) fun e' total files hq => ?_
    · cases hq
    · cases hq
      rfl
  | ok here =>
    simp only [hat] at hin
    rw [Folder.entered_ok]
    refine hin.bind (fun here' total files s' hq hc => ?_) fun e' total files hq => ?_
    · obtain ⟨hhere,hfiles⟩ := hq
      cases hhere
      have hfirst : Follows w s₀ location (.ok (inside.taken here)) (.ok ()) total files := ⟨rfl,hfiles⟩
      exact (hbelow total s' here hc).imp fun r total' files' hq ht => hfirst.joined hq ht
    · cases hq.1

theorem chooseBelow_walks [Resources] (hb : Begun given o run {} s₀) (d : Folder) {location : Text} {here : Sieve}
    (h : Course w s₀ before s) : Walks w s₀ (chooseBelow w location here d) before s
      (Follows w s₀ location (d.beneath (sieves w s₀ location) here)) := by
  induction d generalizing location here before s with
  | empty => exact ⟨.ok (),s,before,[],rfl,List.prefix_refl _,h,by simp,by simp,rfl,.nil⟩
  | file n content rest ih => exact ih h
  | folder n inside rest ihi ihr =>
    unfold chooseBelow Folder.beneath
    by_cases ht : here.takesFolder n = true
    · simp only [if_pos ht]
      have henter := @enter_walks w given o run s s₀ before _ hb h (Location.join location n) inside
        fun _ _ _ hc => ihi hc
      have hfirst := henter.imp fun r total files hq => hq.pushed
      rw [← bind_assoc]
      exact hfirst.joined fun _ _ hc => ihr hc
    · simp only [if_neg ht,Folder.joined_nil]
      exact ihr h

/-! ### Locations of files -/

theorem namesOf_join {folder name : Text} (h : Folder.isName name = true) :
    namesOf (Location.join folder name) = name :: namesOf folder := by
  simp only [Folder.isName,Bool.and_eq_true,Bool.not_eq_true',List.isEmpty_eq_false_iff,
    List.contains_eq_mem,decide_eq_false_iff_not] at h
  obtain ⟨hne,hslash⟩ := h
  have hname : Text.splitOn '/' name = [name] := Text.splitOn_of_not_mem hslash
  have habs : Location.isAbsolute name = false := by
    cases name with
    | nil => rfl
    | cons c cs =>
      have hc : c ≠ '/' := fun hc => hslash (by simp [hc])
      simp [Location.isAbsolute,hc]
  have hslashed (a : Text) : namesOf (a ++ '/' :: name) = name :: namesOf a := by
    simp [namesOf,Text.splitOn_append_cons,hname,hne]
  unfold Location.join
  rw [habs]
  by_cases hend : folder.getLast? = some '/'
  · obtain ⟨a,rfl⟩ := List.getLast?_eq_some_iff.1 hend
    have hfolder : namesOf (a ++ ['/']) = namesOf a := by
      simp [namesOf,Text.splitOn_append_cons,Text.splitOn]
    simp [hfolder,hslashed]
  · cases folder with
    | nil => simp [namesOf,hname,hne,Text.splitOn]
    | cons c cs => simpa [hend] using hslashed (c :: cs)

theorem namesOf_down {r : List Text} (h : ∀ n ∈ r, Folder.isName n = true) (location : Text) :
    namesOf (Location.down location r) = r.reverse ++ namesOf location := by
  induction r generalizing location with
  | nil => rfl
  | cons n r ih =>
    rw [show Location.down location (n :: r) = Location.down (Location.join location n) r from rfl,
      ih (fun m hm => h m (List.mem_cons_of_mem n hm)),namesOf_join (h n (by simp)),List.reverse_cons,
      List.append_assoc]
    rfl

theorem nodup_locations {look : List Text → Except ConfigFault Sieve} {d : Folder} {list : Listing}
    (hd : d.isProper = true) (hn : list.Nodup) (hw : ∀ r f, (r, f) ∈ list → Wanted look d r f)
    (location : Text) : (list.map fun x =>
      Location.join (Location.down location x.1) x.2).Nodup := by
  refine hn.map_on ?_
  have hnames {x : List Text × Text} (hx : x ∈ list) :
      namesOf (Location.join (Location.down location x.1) x.2) =
        x.2 :: (x.1.reverse ++ namesOf location) := by
    obtain ⟨-,inside,here,ha,hf,-⟩ := hw x.1 x.2 hx
    obtain ⟨hr,hi⟩ := Folder.isProper_at hd ha
    rw [namesOf_join (Folder.isName_fileNames hi hf),namesOf_down hr]
  intro x hx y hy he
  have hxy := congrArg namesOf he
  rw [hnames hx,hnames hy] at hxy
  simp only [List.cons.injEq,List.append_cancel_right_eq,List.reverse_inj] at hxy
  exact Prod.ext hxy.2 hxy.1

/-! ### Targets -/

/-- What is chosen in a folder and below: the wanted files, each of them once and by what is said about
its own folder. -/
def FoundBelow [Resources] (w : Workspace) (s₀ : Session) (total : List Text) (target : Text) (inside : Folder)
    (files : List Selected) : Prop :=
  ∃ list : Listing, list.Nodup ∧ (∀ r f, (r, f) ∈ list ↔ Wanted (sieves w s₀ target) inside r f) ∧
    List.Forall₂ (PickedBelow w s₀ total target) list files ∧ (files.map Selected.location).Nodup

/-- What is chosen for a target that is no folder: the target, if its name is taken. -/
def FoundAlone [Resources] (w : Workspace) (s₀ : Session) (total : List Text) (target : Text)
    (files : List Selected) : Prop :=
  ∃ here, sieveAt w s₀ target = .ok here ∧
    match here.takesFile (Location.base target) with
    | true => ∃ x, files = [x] ∧ Picked w s₀ total target target x
    | false => files = []

def Found [Resources] (w : Workspace) (s₀ : Session) (total : List Text) (target : Text) : List Selected → Prop :=
  match w.files.find target with
  | .ok (.folder inside) => FoundBelow w s₀ total target inside
  | _ => FoundAlone w s₀ total target

/-- Why a target is not gone through: a folder that a walk enters, or the target itself, has no sieve. -/
def Failed [Resources] (w : Workspace) (s₀ : Session) (target : Text) (e : ConfigFault) : Prop :=
  match w.files.find target with
  | .ok (.folder inside) => Faulty (sieves w s₀ target) inside e
  | _ => sieveAt w s₀ target = .error e

variable {target : Text} {files : List Selected}

theorem FoundAlone.mono [Resources] (h : FoundAlone w s₀ total target files) (ht : total <+: total') :
    FoundAlone w s₀ total' target files := by
  obtain ⟨here,hat,hf⟩ := h
  refine ⟨here,hat,?_⟩
  cases htakes : here.takesFile (Location.base target) with
  | false =>
    rw [htakes] at hf
    exact hf
  | true =>
    rw [htakes] at hf
    obtain ⟨x,hx,hp⟩ := hf
    exact ⟨x,hx,hp.mono ht⟩

theorem Found.mono [Resources] (h : Found w s₀ total target files) (ht : total <+: total') :
    Found w s₀ total' target files := by
  unfold Found at h ⊢
  cases hfind : w.files.find target with
  | error e =>
    simp only [hfind] at h ⊢
    exact h.mono ht
  | ok node =>
    cases node with
    | file content =>
      simp only [hfind] at h ⊢
      exact h.mono ht
    | folder inside =>
      simp only [hfind] at h ⊢
      obtain ⟨list,hn,hw,hf,hl⟩ := h
      exact ⟨list,hn,hw,hf.imp fun found x hx => hx.mono ht,hl⟩

theorem locations_picked [Resources] {list : Listing}
    (h : List.Forall₂ (PickedBelow w s₀ total location) list files) :
    files.map Selected.location = list.map fun x => Location.join (Location.down location x.1) x.2 := by
  induction h with
  | nil => rfl
  | cons hx _ ih =>
    obtain ⟨_,_,_,_,_,-,-,-,-,rfl⟩ := hx
    exact congrArg _ ih

/-- How targets are gone through, where all names in folders are as they should be. -/
def Treated [Resources] (w : Workspace) (s₀ : Session) (targets : List Text) (r : Except ConfigFault Unit)
    (total : List Text) (files : List Selected) : Prop :=
  w.files.root.isProper = true → match r with
    | .ok _ => ∃ groups : List (List Selected), files = groups.flatten ∧
      List.Forall₂ (Found w s₀ total) targets groups
    | .error e => ∃ target ∈ targets, Failed w s₀ target e

theorem chooseAlone_walks [Resources] (hb : Begun given o run {} s₀) (h : Course w s₀ before s) (target : Text) :
    Walks w s₀ (sieve w target >>= fun (here, codes) =>
        if here.takesFile (Location.base target) then choose [here.selected codes target] else pure ())
      before s fun r total files => match r with
        | .ok _ => FoundAlone w s₀ total target files
        | .error e => sieveAt w s₀ target = .error e := by
  obtain ⟨s',hc,hch,hsieve⟩ := h.sieve hb target
  cases hat : sieveAt w s₀ target with
  | error e =>
    simp only [hat] at hsieve
    exact ⟨.error e,s',_,[],bind_error hsieve,List.prefix_append ..,hc,by simp [hch],by simp,rfl⟩
  | ok here =>
    simp only [hat] at hsieve
    obtain ⟨codes,hsieve⟩ := hsieve
    have hpick : Picked w s₀ (before ++ [w.files.absolute target]) target target
        (here.selected codes target) := ⟨before,s,s',here,codes,List.prefix_refl _,h,hsieve,hat,rfl⟩
    cases ht : here.takesFile (Location.base target) with
    | true =>
      refine ⟨.ok (),_,_,[here.selected codes target],?_,List.prefix_append ..,
        hc.choose [here.selected codes target],?_,?_,here,hat,?_⟩
      · refine (bind_ok hsieve).trans ?_
        simp only [ht,if_true]
        rfl
      · rw [Session.chosen_choose,hch]
      · intro x hx
        obtain rfl := List.mem_singleton.1 hx
        exact ⟨target,target,hpick⟩
      · rw [ht]
        exact ⟨_,rfl,hpick⟩
    | false =>
      refine ⟨.ok (),s',_,[],?_,List.prefix_append ..,hc,by simp [hch],by simp,here,hat,by rw [ht]⟩
      refine (bind_ok hsieve).trans ?_
      simp only [ht]
      rfl

theorem chooseTarget_walks [Resources] (hb : Begun given o run {} s₀) (h : Course w s₀ before s) (target : Text) :
    Walks w s₀ (chooseTarget w target) before s fun r total files => w.files.root.isProper = true →
      match r with
      | .ok _ => Found w s₀ total target files
      | .error e => Failed w s₀ target e := by
  unfold chooseTarget Found Failed
  cases hfind : w.files.find target with
  | error e =>
    simp only
    exact (chooseAlone_walks hb h target).imp fun _ _ _ hq _ => hq
  | ok node =>
    cases node with
    | file content =>
      simp only
      exact (chooseAlone_walks hb h target).imp fun _ _ _ hq _ => hq
    | folder inside =>
      simp only
      refine (enter_walks hb h fun _ _ _ hc => chooseBelow_walks hb inside hc).imp
        fun r total files hq hp => ?_
      have hi := Folder.isProper_find hp hfind
      have hexact := Folder.walk_exact (sieves w s₀ target) hi
      cases hw : inside.walk (sieves w s₀ target) with
      | error e =>
        rw [hw] at hq hexact
        obtain rfl : r = .error e := hq
        exact hexact
      | ok list =>
        rw [hw] at hq hexact
        obtain ⟨rfl,hf⟩ := hq
        refine ⟨list,hexact.1,hexact.2,hf,?_⟩
        rw [locations_picked hf]
        exact nodup_locations hi hexact.1 (fun r f hm => (hexact.2 r f).1 hm) target

theorem chooseAll_walks [Resources] (hb : Begun given o run {} s₀) (h : Course w s₀ before s) (targets : List Text) :
    Walks w s₀ (chooseAll w targets) before s (Treated w s₀ targets) := by
  induction targets generalizing before s with
  | nil => exact ⟨.ok (),s,before,[],rfl,List.prefix_refl _,h,by simp,by simp,fun _ => ⟨[],rfl,.nil⟩⟩
  | cons target targets ih =>
    refine (chooseTarget_walks hb h target).bind (fun _ total files s' hq hc => ?_) fun e _ _ hq hp => ?_
    · refine (ih hc).imp fun r total' files' hq' ht hp => ?_
      cases r with
      | error e =>
        obtain ⟨t,hm,hf⟩ := hq' hp
        exact ⟨t,List.mem_cons_of_mem target hm,hf⟩
      | ok _ =>
        obtain ⟨groups,rfl,hf⟩ := hq' hp
        exact ⟨files :: groups,rfl,.cons ((hq hp).mono ht) hf⟩
    · exact ⟨target,by simp,hq hp⟩

theorem chosen_begun (hb : Begun given o run {} s₀) : s₀.chosen = [] := by
  obtain ⟨lines,hl⟩ := hb.trail
  simp [Session.chosen,hl,List.filterMap_map,Function.comp_def,Event.selected?]

theorem chooseFiles_walks [Resources] (hb : Begun given o run {} s₀) :
    ∃ targets r s total, s₀.targets = some targets ∧ Gives (chooseFiles w) s₀ r s ∧
      Course w s₀ total s ∧ (∀ x ∈ s.chosen, ∃ location place, Picked w s₀ total location place x) ∧
      Treated w s₀ targets r total s.chosen := by
  obtain ⟨targets,ht⟩ := hb.targets
  have heq : chooseFiles w s₀ = chooseAll w targets s₀ := by
    refine (bind_ok rfl).trans ?_
    simp only [hb.settled.settings,ht]
  obtain ⟨r,s,total,files,hg,-,hc,hch,hx,hq⟩ := chooseAll_walks (w := w) hb .start targets
  rw [chosen_begun hb,List.nil_append] at hch
  refine ⟨targets,r,s,total,ht,?_,hc,by rwa [hch],by rwa [hch]⟩
  cases r <;> exact heq.trans hg

/-- Choosing files goes through all targets and chooses for each of them what is found there, or it ends
with the fault of a folder that a walk enters, or of a target. -/
theorem chooseFiles_exact [Resources] {words : List Text} (hstart : Session.start words {} = .ok o s₀)
    (hp : w.files.root.isProper = true) :
    ∃ targets r s total, s₀.targets = some targets ∧ Gives (chooseFiles w) s₀ r s ∧
      Course w s₀ total s ∧ match r with
        | .ok _ => ∃ groups : List (List Selected), s.chosen = groups.flatten ∧
          List.Forall₂ (Found w s₀ total) targets groups
        | .error e => ∃ target ∈ targets, Failed w s₀ target e := by
  obtain ⟨given,run,hb⟩ := start_ok hstart
  obtain ⟨targets,r,s,total,ht,hg,hc,-,hq⟩ := chooseFiles_walks (w := w) hb
  exact ⟨targets,r,s,total,ht,hg,hc,hq hp⟩

/-- A folder with a hidden folder, into which no walk goes down, and one that takes other files. -/
def grove : Workspace where
  files :=
    { root := .folder "p" (.folder ".git" (.file "c.py" [] .empty) (.file "a.py" [] (.folder "sub"
        (.file "setup.cfg" ("[pydocstyle]\nmatch=.*\\.txt\n".toList.map fun c => c.toNat.toUInt8)
          (.file "x.py" [] (.file "x.txt" [] .empty))) (.file "test_b.py" [] .empty)))) .empty
      working := [] }

open Resources.Builtin

theorem chooseFiles_exact_grove : ∃ o s₀ s total groups, Session.start ["p"] {} = .ok o s₀ ∧
    grove.files.root.isProper = true ∧ chooseFiles grove s₀ = .ok () s ∧ Course grove s₀ total s ∧
    s.chosen = groups.flatten ∧ List.Forall₂ (Found grove s₀ total) ["p".toList] groups ∧
    s.chosen.map Selected.location = Text.literals ["p/a.py","p/sub/x.txt"] := by
  obtain ⟨o,s₀,hstart,hs₀⟩ := @exists_of_opens ["p"] (fun s₀ => s₀.targets == some ["p".toList] &&
    match chooseFiles grove s₀ with
    | .ok _ s => s.chosen.map Selected.location == Text.literals ["p/a.py","p/sub/x.txt"]
    | .error _ _ => false) (by decide +kernel)
  simp only [Bool.and_eq_true,beq_iff_eq] at hs₀
  have hp : grove.files.root.isProper = true := by decide +kernel
  obtain ⟨targets,r,s,total,ht,hg,hc,hq⟩ := chooseFiles_exact hstart hp
  obtain rfl := Option.some.inj (ht.symm.trans hs₀.1)
  cases r with
  | error e =>
    simp only [Gives] at hg
    simp [hg] at hs₀
  | ok _ =>
    simp only [Gives] at hg
    obtain ⟨groups,hch,hf⟩ := hq
    simp only [hg,beq_iff_eq] at hs₀
    exact ⟨o,s₀,s,total,groups,hstart,hp,hg,hc,hch,hf,hs₀.2⟩

end Lookup

end DocLint
