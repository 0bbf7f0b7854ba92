import DocLint.Config.Selection
import DocLint.Proofs.Config.Independence

/-!
Walks down a folder. Each folder on the way has a sieve, which says what files of it are taken and into
which of its folders the walk goes down. Whatever the sieves are, the walk takes each file once whose
way down is open.
-/

set_option autoImplicit false

namespace DocLint

/-! ### Folders as they stand on a disk -/

namespace Folder

def names : Folder → List Text
  | .empty => []
  | .file n _ rest => n :: rest.names
  | .folder n _ rest => n :: rest.names

def isName (t : Text) : Bool := !t.isEmpty && !t.contains '/'

/-- Whether no two things in a folder have the same name, here and in all folders below. -/
def isProper : Folder → Bool
  | .empty => true
  | .file n _ rest => isName n && !rest.names.contains n && rest.isProper
  | .folder n inside rest => isName n && !rest.names.contains n && inside.isProper && rest.isProper

def at? : Folder → List Text → Option Folder
  | d, [] => some d
  | d, n :: r =>
    match d.get? n with
    | some (.folder inside) => inside.at? r
    | _ => none

variable {d inside rest : Folder} {n m : Text} {content : Bytes} {r : List Text}

theorem get_of_not_mem (h : n ∉ d.names) : d.get? n = none := by
  induction d with
  | empty => rfl
  | file m content rest ih =>
    simp only [names,List.mem_cons,not_or] at h
    rw [get?,if_neg (Ne.symm h.1),ih h.2]
  | folder m inside rest _ ih =>
    simp only [names,List.mem_cons,not_or] at h
    rw [get?,if_neg (Ne.symm h.1),ih h.2]

theorem at_file (h : n ∉ rest.names) : (file n content rest).at? (m :: r) = rest.at? (m :: r) := by
  by_cases hn : n = m
  · subst hn
    simp only [at?,get?,if_true,get_of_not_mem h]
  · simp only [at?,get?,if_neg hn]

theorem at_folder (hn : n ≠ m) : (folder n inside rest).at? (m :: r) = rest.at? (m :: r) := by
  simp only [at?,get?,if_neg hn]

theorem at_self : (folder n inside rest).at? (n :: r) = inside.at? r := by
  simp only [at?,get?,if_true]

theorem fileNames_subset : d.fileNames ⊆ d.names := by
  induction d with
  | empty => exact List.Subset.refl _
  | file n content rest ih => exact List.cons_subset_cons n ih
  | folder n inside rest _ ih => exact fun m hm => List.mem_cons_of_mem n (ih hm)

theorem nodup_fileNames (h : d.isProper = true) : d.fileNames.Nodup := by
  induction d with
  | empty => exact List.nodup_nil
  | file n content rest ih =>
    simp only [isProper,Bool.and_eq_true,Bool.not_eq_true',List.contains_eq_mem,
      decide_eq_false_iff_not] at h
    exact List.nodup_cons.2 ⟨fun hn => h.1.2 (fileNames_subset hn),ih h.2⟩
  | folder n inside rest _ ih =>
    simp only [isProper,Bool.and_eq_true] at h
    exact ih h.2

theorem isProper_get (h : d.isProper = true) (hg : d.get? n = some (.folder inside)) :
    isName n = true ∧ inside.isProper = true := by
  induction d with
  | empty => cases hg
  | file m content rest ih =>
    simp only [isProper,Bool.and_eq_true] at h
    simp only [get?] at hg
    split at hg
    · cases hg
    · exact ih h.2 hg
  | folder m inside' rest _ ih =>
    simp only [isProper,Bool.and_eq_true] at h
    simp only [get?] at hg
    split at hg
    · rename_i hm
      cases hg
      exact ⟨hm ▸ h.1.1.1,h.1.2⟩
    · exact ih h.2 hg

theorem isProper_at (h : d.isProper = true) (ha : d.at? r = some inside) :
    (∀ n ∈ r, isName n = true) ∧ inside.isProper = true := by
  induction r generalizing d with
  | nil =>
    cases ha
    exact ⟨by simp,h⟩
  | cons n r ih =>
    simp only [at?] at ha
    split at ha
    · rename_i inside' hg
      obtain ⟨hn,hi⟩ := isProper_get h hg
      obtain ⟨hr,hd⟩ := ih hi ha
      exact ⟨by simpa [hn] using hr,hd⟩
    · cases ha

theorem isName_fileNames (h : d.isProper = true) (hn : n ∈ d.fileNames) : isName n = true := by
  induction d with
  | empty => cases hn
  | file m content rest ih =>
    simp only [isProper,Bool.and_eq_true] at h
    rcases List.mem_cons.1 hn with rfl | hn
    · exact h.1.1
    · exact ih h.2 hn
  | folder m inside rest _ ih =>
    simp only [isProper,Bool.and_eq_true] at h
    exact ih h.2 hn

theorem isProper_follow {above : List Folder} (ha : ∀ d ∈ above, d.isProper = true)
    (hd : d.isProper = true) (h : FileTree.follow r above d = .ok (.folder inside)) :
    inside.isProper = true := by
  induction r generalizing above d with
  | nil =>
    cases h
    exact hd
  | cons n r ih =>
    unfold FileTree.follow at h
    split at h
    · exact ih ha hd h
    · split at h
      · cases above with
        | nil => exact ih ha hd h
        | cons up more => exact ih (fun d hm => ha d (List.mem_cons_of_mem up hm)) (ha up (by simp)) h
      · split at h
        · cases h
        · rename_i inside' hg
          exact ih (by simpa [hd] using ha) (isProper_get hd hg).2 h
        · split at h <;> cases h

theorem isProper_find {t : FileTree} {location : Text} (h : t.root.isProper = true)
    (hf : t.find location = .ok (.folder inside)) : inside.isProper = true := by
  unfold FileTree.find at hf
  split at hf
  · cases hf
  · split at hf <;> exact isProper_follow (by simp) h hf

end Folder

/-! ### The walk -/

namespace Folder

abbrev Listing := List (List Text × Text)

def taken (d : Folder) (here : Sieve) : Listing := (d.fileNames.filter here.takesFile).map fun f => ([], f)

def pushed (n : Text) (list : Listing) : Listing := list.map fun x => (n :: x.1, x.2)

def joined (a b : Except ConfigFault Listing) : Except ConfigFault Listing := do
  let first ← a
  let second ← b
  return first ++ second

theorem joined_nil (b : Except ConfigFault Listing) : joined (.ok []) b = b := by
  cases b <;> rfl

def entered (d : Folder) (here : Except ConfigFault Sieve)
    (deeper : Sieve → Except ConfigFault Listing) : Except ConfigFault Listing := do
  let here ← here
  joined (.ok (d.taken here)) (deeper here)

theorem entered_error (d : Folder) (e : ConfigFault) (deeper : Sieve → Except ConfigFault Listing) :
    d.entered (.error e) deeper = .error e := rfl

theorem entered_ok (d : Folder) (here : Sieve) (deeper : Sieve → Except ConfigFault Listing) :
    d.entered (.ok here) deeper = joined (.ok (d.taken here)) (deeper here) := rfl

/-- What is found below a folder, in the folders whose names its sieve takes. -/
def beneath : Folder → (List Text → Except ConfigFault Sieve) → Sieve → Except ConfigFault Listing
  | .empty, _, _ => .ok []
  | .file _ _ rest, look, here => rest.beneath look here
  | .folder n inside rest, look, here =>
    joined
      (if here.takesFolder n then
        (entered inside (look [n]) (inside.beneath fun r => look (n :: r))).map (pushed n)
      else .ok [])
      (rest.beneath look here)

def walk (d : Folder) (look : List Text → Except ConfigFault Sieve) : Except ConfigFault Listing :=
  d.entered (look []) (d.beneath look)

end Folder

/-- The way down to a folder is open: on it, each folder is taken by the sieve of the one that holds it. -/
def Open (look : List Text → Except ConfigFault Sieve) (r : List Text) : Prop :=
  ∀ up n, up ++ [n] <+: r → ∃ here, look up = .ok here ∧ here.takesFolder n = true

/-- A walk enters a folder if there is an open way down to it. -/
def Entered (look : List Text → Except ConfigFault Sieve) (d : Folder) (r : List Text) : Prop :=
  Open look r ∧ ∃ inside, d.at? r = some inside

/-- A file that the sieve of its folder takes, with an open way down to the folder. -/
def Wanted (look : List Text → Except ConfigFault Sieve) (d : Folder) (r : List Text) (f : Text) : Prop :=
  Open look r ∧ ∃ inside here, d.at? r = some inside ∧ f ∈ inside.fileNames ∧ look r = .ok here ∧
    here.takesFile f = true

def Faulty (look : List Text → Except ConfigFault Sieve) (d : Folder) (e : ConfigFault) : Prop :=
  ∃ r, Entered look d r ∧ look r = .error e

section Open

variable {look : List Text → Except ConfigFault Sieve} {d inside rest : Folder} {here : Sieve}
  {n m f : Text} {content : Bytes} {r : List Text} {e : ConfigFault}

theorem open_nil : Open look [] := by
  intro up n h
  simp at h

theorem open_cons : Open look (n :: r) ↔
    (∃ here, look [] = .ok here ∧ here.takesFolder n = true) ∧ Open (fun r => look (n :: r)) r := by
  constructor
  · intro h
    refine ⟨h [] n ⟨r,rfl⟩,fun up m hm => h (n :: up) m ?_⟩
    exact List.cons_prefix_cons.2 ⟨rfl,hm⟩
  · rintro ⟨hn,hr⟩ up m hm
    cases up with
    | nil =>
      obtain ⟨rfl,-⟩ := List.cons_prefix_cons.1 hm
      exact hn
    | cons k up =>
      obtain ⟨rfl,hm'⟩ := List.cons_prefix_cons.1 hm
      exact hr up m hm'

theorem wanted_nil (hlook : look [] = .ok here) :
    Wanted look d [] f ↔ f ∈ d.fileNames ∧ here.takesFile f = true := by
  constructor
  · rintro ⟨-,inside,here',hd,hf,hl,ht⟩
    cases hd
    obtain rfl : here = here' := Except.ok.inj (hlook.symm.trans hl)
    exact ⟨hf,ht⟩
  · rintro ⟨hf,ht⟩
    exact ⟨open_nil,d,here,rfl,hf,hlook,ht⟩

/-- Behind the first name on the way down, the way goes on in the folder of that name. -/
theorem wanted_self (hlook : look [] = .ok here) : Wanted look (.folder n inside rest) (n :: r) f ↔
    here.takesFolder n = true ∧ Wanted (fun r => look (n :: r)) inside r f := by
  simp only [Wanted,open_cons,Folder.at_self,hlook,Except.ok.injEq]
  constructor
  · rintro ⟨⟨⟨_,rfl,hn⟩,hr⟩,hf⟩
    exact ⟨hn,hr,hf⟩
  · rintro ⟨hn,hr,hf⟩
    exact ⟨⟨⟨here,rfl,hn⟩,hr⟩,hf⟩

theorem wanted_file (hn : n ∉ rest.names) (hr : r ≠ []) :
    Wanted look (.file n content rest) r f ↔ Wanted look rest r f := by
  cases r with
  | nil => exact absurd rfl hr
  | cons m r => rw [Wanted,Folder.at_file hn,Wanted]

theorem wanted_folder (hn : n ≠ m) :
    Wanted look (.folder n inside rest) (m :: r) f ↔ Wanted look rest (m :: r) f := by
  rw [Wanted,Folder.at_folder hn,Wanted]

theorem Faulty.push (hlook : look [] = .ok here) (hn : here.takesFolder n = true)
    (h : Faulty (fun r => look (n :: r)) inside e) : Faulty look (.folder n inside rest) e := by
  obtain ⟨r,⟨hr,hi⟩,he⟩ := h
  refine ⟨n :: r,⟨open_cons.2 ⟨⟨here,hlook,hn⟩,hr⟩,?_⟩,he⟩
  rwa [Folder.at_self]

theorem Faulty.later
    (hat : ∀ m r, rest.at? (m :: r) ≠ none → d.at? (m :: r) = rest.at? (m :: r))
    (h : Faulty look rest e) : Faulty look d e := by
  obtain ⟨r,⟨hr,inside,hi⟩,he⟩ := h
  refine ⟨r,⟨hr,?_⟩,he⟩
  cases r with
  | nil => exact ⟨d,rfl⟩
  | cons m r => exact ⟨inside,by rw [hat m r (by simp [hi]),hi]⟩

theorem not_wanted (hn : n ∉ rest.names) : ¬ Wanted look rest (n :: r) f := by
  rintro ⟨-,inside,here,hd,-⟩
  simp [Folder.at?,Folder.get_of_not_mem hn] at hd

end Open

/-! ### What a walk finds -/

/-- A listing holds exactly the files with some property, each of them once; a fault stands for one of
some others. -/
def Exact (P : List Text → Text → Prop) (F : ConfigFault → Prop) : Except ConfigFault Folder.Listing → Prop
  | .ok list => list.Nodup ∧ ∀ r f, (r, f) ∈ list ↔ P r f
  | .error e => F e

section Exact

variable {P Q : List Text → Text → Prop} {F G : ConfigFault → Prop} {a b : Except ConfigFault Folder.Listing}

theorem Exact.congr (h : Exact P F a) (hP : ∀ r f, P r f ↔ Q r f) (hF : ∀ e, F e → G e) : Exact Q G a := by
  cases a with
  | error e => exact hF e h
  | ok list => exact ⟨h.1,fun r f => (h.2 r f).trans (hP r f)⟩

theorem Exact.append (ha : Exact P F a) (hb : Exact Q F b) (hPQ : ∀ r f, P r f → ¬ Q r f) :
    Exact (fun r f => P r f ∨ Q r f) F (Folder.joined a b) := by
  cases a with
  | error e => exact ha
  | ok first =>
    cases b with
    | error e => exact hb
    | ok second =>
      refine ⟨List.nodup_append.2 ⟨ha.1,hb.1,?_⟩,fun r f => ?_⟩
      · rintro ⟨r,f⟩ h₁ _ h₂ rfl
        exact hPQ r f ((ha.2 r f).1 h₁) ((hb.2 r f).1 h₂)
      · rw [List.mem_append,ha.2,hb.2]

theorem Exact.push (n : Text) (h : Exact P F a) :
    Exact (fun r f => ∃ r', r = n :: r' ∧ P r' f) F (a.map (Folder.pushed n)) := by
  cases a with
  | error e => exact h
  | ok list =>
    constructor
    · refine List.Pairwise.map _ (fun x y hne he => hne ?_) h.1
      simpa [Prod.ext_iff] using he
    · intro r f
      rw [Folder.pushed,List.mem_map]
      constructor
      · rintro ⟨x,hx,he⟩
        cases he
        exact ⟨x.1,rfl,(h.2 x.1 x.2).1 hx⟩
      · rintro ⟨r',rfl,hP⟩
        exact ⟨(r',f),(h.2 r' f).2 hP,rfl⟩

end Exact

namespace Folder

variable {look : List Text → Except ConfigFault Sieve} {d : Folder} {here : Sieve}

theorem taken_exact (hd : d.isProper = true) (hlook : look [] = .ok here) (F : ConfigFault → Prop) :
    Exact (fun r f => r = [] ∧ Wanted look d r f) F (.ok (d.taken here)) := by
  constructor
  · refine List.Pairwise.map _ (fun x y hne he => hne ?_) ((nodup_fileNames hd).filter _)
    simpa using he
  · intro r f
    simp only [taken,List.mem_map,List.mem_filter,Prod.mk.injEq]
    constructor
    · rintro ⟨f',⟨hf,ht⟩,rfl,rfl⟩
      exact ⟨rfl,(wanted_nil hlook).2 ⟨hf,ht⟩⟩
    · rintro ⟨rfl,h⟩
      exact ⟨f,(wanted_nil hlook).1 h,rfl,rfl⟩

/-- From what is found below a folder to what is found in it and below. -/
theorem entered_exact (hd : d.isProper = true)
    (h : ∀ here, look [] = .ok here →
      Exact (fun r f => r ≠ [] ∧ Wanted look d r f) (Faulty look d)
        (d.beneath look here)) :
    Exact (Wanted look d) (Faulty look d) (d.walk look) := by
  unfold walk entered
  cases hlook : look [] with
  | error e => exact ⟨[],⟨open_nil,d,rfl⟩,hlook⟩
  | ok here =>
    refine ((taken_exact hd hlook _).append (h here hlook) fun r f h₁ h₂ => h₂.1 h₁.1).congr
      (fun r f => ?_) fun e => id
    by_cases hr : r = [] <;> simp [hr]

theorem beneath_exact (hd : d.isProper = true) (hlook : look [] = .ok here) :
    Exact (fun r f => r ≠ [] ∧ Wanted look d r f) (Faulty look d) (d.beneath look here) := by
  induction d generalizing look here with
  | empty =>
    refine ⟨List.nodup_nil,fun r f => iff_of_false (by simp) ?_⟩
    rintro ⟨hr,-,inside,_,ha,-⟩
    cases r with
    | nil => exact hr rfl
    | cons n r => cases ha
  | file n content rest ih =>
    simp only [isProper,Bool.and_eq_true,Bool.not_eq_true',List.contains_eq_mem,
      decide_eq_false_iff_not] at hd
    exact (ih hd.2 hlook).congr (fun r f => and_congr_right fun hr => (wanted_file hd.1.2 hr).symm)
      fun e => Faulty.later fun m r _ => at_file hd.1.2
  | folder n inside rest ihi ihr =>
    simp only [isProper,Bool.and_eq_true,Bool.not_eq_true',List.contains_eq_mem,
      decide_eq_false_iff_not] at hd
    obtain ⟨⟨⟨-,hn⟩,hi⟩,hr⟩ := hd
    have hfirst : Exact (fun r f => ∃ r', r = n :: r' ∧ here.takesFolder n = true ∧
          Wanted (fun r => look (n :: r)) inside r' f) (Faulty look (.folder n inside rest))
        (if here.takesFolder n then (inside.walk fun r => look (n :: r)).map (pushed n)
          else .ok []) := by
      by_cases ht : here.takesFolder n = true
      · rw [if_pos ht]
        exact ((entered_exact hi fun inner hinner => ihi hi hinner).push n).congr
          (fun r f => by simp [ht]) fun e => Faulty.push hlook ht
      · rw [if_neg ht]
        exact ⟨List.nodup_nil,fun r f => by simp [ht]⟩
    refine (hfirst.append (ihr hr hlook |>.congr (fun _ _ => Iff.rfl) fun e => Faulty.later ?_) ?_).congr
      (fun r f => ?_) fun e => id
    · intro m r hm
      refine at_folder ?_
      rintro rfl
      simp [at?,get_of_not_mem hn] at hm
    · rintro r f ⟨r',rfl,-⟩ ⟨-,hw⟩
      exact not_wanted hn hw
    · cases r with
      | nil => simp
      | cons m r =>
        by_cases hm : n = m
        · subst hm
          simp [wanted_self hlook,not_wanted hn]
        · simp [wanted_folder hm,Ne.symm hm]

/-- Whatever sieves the folders have, a walk finds exactly the wanted files, each of them once, unless
a folder that it enters has none. -/
theorem walk_exact (look : List Text → Except ConfigFault Sieve) (hd : d.isProper = true) :
    Exact (Wanted look d) (Faulty look d) (d.walk look) :=
  entered_exact hd fun _ hlook => beneath_exact hd hlook

/-! ### Walks without a fault -/

theorem joined_ok {a b : Except ConfigFault Listing} {list : Listing} (h : joined a b = .ok list) :
    (∃ first, a = .ok first) ∧ ∃ second, b = .ok second := by
  cases a with
  | error e => cases h
  | ok first =>
    cases b with
    | error e => cases h
    | ok second => exact ⟨⟨first,rfl⟩,second,rfl⟩

def Sieved (look : List Text → Except ConfigFault Sieve) (d : Folder) : Prop :=
  ∀ r, Entered look d r → ∃ here, look r = .ok here

theorem walk_sieved {list : Listing} (h : d.walk look = .ok list)
    (hbelow : ∀ here list, look [] = .ok here → d.beneath look here = .ok list →
      ∀ r, r ≠ [] → Entered look d r → ∃ here, look r = .ok here) : Sieved look d := by
  intro r he
  cases hlook : look [] with
  | error e =>
    rw [walk,hlook,entered_error] at h
    cases h
  | ok here =>
    rw [walk,hlook,entered_ok] at h
    obtain ⟨-,second,hsecond⟩ := joined_ok h
    cases r with
    | nil => exact ⟨here,hlook⟩
    | cons n r => exact hbelow here second hlook hsecond (n :: r) (by simp) he

theorem beneath_sieves {list : Listing} (hd : d.isProper = true) (hlook : look [] = .ok here)
    (h : d.beneath look here = .ok list) (r : List Text) (hr : r ≠ []) (he : Entered look d r) :
    ∃ here, look r = .ok here := by
  induction d generalizing look here list r with
  | empty =>
    obtain ⟨-,inside,hi⟩ := he
    cases r with
    | nil => exact absurd rfl hr
    | cons n r => cases hi
  | file n content rest ih =>
    simp only [isProper,Bool.and_eq_true,Bool.not_eq_true',List.contains_eq_mem,
      decide_eq_false_iff_not] at hd
    obtain ⟨hopen,hi⟩ := he
    cases r with
    | nil => exact absurd rfl hr
    | cons m r =>
      rw [at_file hd.1.2] at hi
      exact ih hd.2 hlook h (m :: r) hr ⟨hopen,hi⟩
  | folder n inside rest ihi ihr =>
    simp only [isProper,Bool.and_eq_true] at hd
    obtain ⟨⟨first,hfirst⟩,second,hsecond⟩ := joined_ok h
    obtain ⟨hopen,hi⟩ := he
    cases r with
    | nil => exact absurd rfl hr
    | cons m r =>
      by_cases hm : n = m
      · subst hm
        rw [at_self] at hi
        obtain ⟨⟨here',hlook',ht⟩,hopen⟩ := open_cons.1 hopen
        obtain rfl : here = here' := Except.ok.inj (hlook.symm.trans hlook')
        rw [if_pos ht] at hfirst
        cases hw : inside.walk fun r => look (n :: r) with
        | error e =>
          unfold walk at hw
          rw [hw] at hfirst
          cases hfirst
        | ok found =>
          have hinner : Sieved (fun r => look (n :: r)) inside :=
            walk_sieved hw fun _ _ hlook h => ihi hd.1.2 hlook h
          exact hinner r ⟨hopen,hi⟩
      · rw [at_folder hm] at hi
        exact ihr hd.2 hlook hsecond (m :: r) hr ⟨hopen,hi⟩

theorem not_faulty_of_walk {list : Listing} {e : ConfigFault} (hd : d.isProper = true)
    (h : d.walk look = .ok list) : ¬ Faulty look d e := by
  rintro ⟨r,he,hr⟩
  obtain ⟨here,hhere⟩ := walk_sieved h (fun _ _ hlook h => beneath_sieves hd hlook h) r he
  cases hr.symm.trans hhere

end Folder

end DocLint
