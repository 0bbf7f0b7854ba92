import DocLint.Proofs.Config.Ledger

/-!
Whether what is looked up for a folder depends on what was looked up before. The lists of folders are
their own; only the standard list is shared by folders that have nothing to do with each other, and
those of them that change it change it for all others.
-/

set_option autoImplicit false

namespace DocLint.Lookup

open Toml (Value)

variable {w : Workspace} {given : Settings} {o : Override} {l l' l₀ : Ledger} {names : List Text}
  {r : Except ConfigFault Config} {c : Config}

/-! ### One lookup -/

theorem overriddenBy_overriddenBy (o : Override) (c : Config) :
    overriddenBy o (overriddenBy o c) = overriddenBy o c := by
  obtain ⟨codes,files,folders,ignored,property⟩ := o
  cases codes <;> cases files <;> cases folders <;> cases ignored <;> cases property <;> rfl

theorem Looked.unique {r' : Except ConfigFault Config} {l'' : Ledger} (h : Looked w given o l names r l')
    (h' : Looked w given o l names r' l'') : r = r' ∧ l' = l'' := by
  induction h generalizing r' l'' with
  | known hk => cases h' <;> grind
  | unread hk hp => cases h' <;> grind
  | borrowed hk hp ha ih => cases h' <;> grind
  | refused hk hp hs => cases h' <;> grind
  | fresh hk hp hs => cases h' <;> grind
  | stopped hk hp hb ha ih => cases h' <;> grind
  | unmerged hk hp ha hs ih => cases h' <;> grind
  | merged hk hp ha hs ih => cases h' <;> grind

theorem Looked.congr {names' : List Text} (h : Looked w given o l names r l')
    (hf : folderOf w names' = folderOf w names) : Looked w given o l names' r l' := by
  cases h with
  | known hk => rw [← hf] at hk ⊢; exact .known hk
  | unread hk hp => rw [← hf] at hk hp; exact .unread hk hp
  | borrowed hk hp ha => rw [← hf] at hk hp ha ⊢; exact .borrowed hk hp ha
  | refused hk hp hs => rw [← hf] at hk hp; exact .refused hk hp hs
  | fresh hk hp hs => rw [← hf] at hk hp ⊢; exact .fresh hk hp hs
  | stopped hk hp hb ha => rw [← hf] at hk hp ha; exact .stopped hk hp hb ha
  | unmerged hk hp ha hs => rw [← hf] at hk hp ha; exact .unmerged hk hp ha hs
  | merged hk hp ha hs => rw [← hf] at hk hp ha ⊢; exact .merged hk hp ha hs

/-- A plan that goes up to the folder above is not that of the root. -/
theorem tail_length {p : Plan} (hp : planned w given (folderOf w names) = .ok p)
    (hne : ∀ own, p ≠ .fresh own) : (folderOf w names).tail.length < (folderOf w names).length := by
  cases hf : folderOf w names with
  | nil =>
    rw [hf] at hp
    obtain ⟨own,rfl⟩ := planned_root hp
    exact absurd rfl (hne own)
  | cons n up => exact Nat.lt_succ_self _

/-- A lookup keeps the configurations of the folder that it is about and of folders above. -/
theorem Looked.known_length {g : List Text} (h : Looked w given o l names r l') (hg : l'.known g ≠ none) :
    l.known g ≠ none ∨ g.length ≤ (folderOf w names).length := by
  have hclose {l₁ : Ledger} {c : Config} {names : List Text}
      (hc : (close given o l₁ (folderOf w names) c).known g ≠ none) :
      g = folderOf w names ∨ l₁.known g ≠ none := by
    by_cases hgf : g = folderOf w names
    · exact .inl hgf
    · simp only [close,Ledger.known_keep,hgf,if_false,Ledger.known_adjust] at hc
      exact .inr hc
  have htail {names : List Text} {l₁ : Ledger} {p : Plan}
      (hp : planned w given (folderOf w names) = .ok p) (hne : ∀ own, p ≠ .fresh own)
      (ih : l₁.known g ≠ none →
        l.known g ≠ none ∨ g.length ≤ (folderOf w (folderOf w names).tail).length)
      (hg : l₁.known g ≠ none) : l.known g ≠ none ∨ g.length ≤ (folderOf w names).length := by
    refine (ih hg).imp_right fun hle => ?_
    have h₁ := tail_length hp hne
    have h₂ := @folderOf_length w (folderOf w names).tail
    omega
  induction h with
  | known hk => exact (hclose hg).symm.imp_right fun hgf => Nat.le_of_eq (congrArg _ hgf)
  | unread hk hp => exact .inl hg
  | borrowed hk hp ha ih =>
    rcases hclose hg with hgf | hg
    · exact .inr (Nat.le_of_eq (congrArg _ hgf))
    · exact htail hp (by simp) ih hg
  | refused hk hp hs => exact .inl hg
  | @fresh names own st hk hp hs =>
    rcases hclose hg with hgf | hg
    · exact .inr (Nat.le_of_eq (congrArg _ hgf))
    · refine .inl ?_
      cases st <;> exact hg
  | stopped hk hp hb ha ih => exact htail hp (by rcases hb with rfl | ⟨own,rfl⟩ <;> simp) ih hg
  | unmerged hk hp ha hs ih => exact htail hp (by simp) ih hg
  | merged hk hp ha hs ih =>
    rcases hclose hg with hgf | hg
    · exact .inr (Nat.le_of_eq (congrArg _ hgf))
    · exact htail hp (by simp) ih hg

/-- The folder itself is not yet known when the one above has been looked up. -/
theorem Looked.unknown {p : Plan} (h : Looked w given o l (folderOf w names).tail r l')
    (hp : planned w given (folderOf w names) = .ok p) (hne : ∀ own, p ≠ .fresh own)
    (hk : l.known (folderOf w names) = none) : l'.known (folderOf w names) = none := by
  refine Classical.byContradiction fun hk' => ?_
  rcases h.known_length hk' with hk₁ | hle
  · exact hk₁ hk
  · have h₁ := tail_length hp hne
    have h₂ := @folderOf_length w (folderOf w names).tail
    omega

/-! ### What is made of the standard list -/

def Proper (names : List Text) : Prop := ∀ n ∈ names, n ≠ [] ∧ '/' ∉ n

theorem Proper.tail (h : Proper names) : Proper names.tail := fun m hm => h m (List.mem_of_mem_tail hm)

theorem proper_folderOf (h : Proper names) : Proper (folderOf w names) := by
  cases names with
  | nil => exact h
  | cons n up =>
    by_cases hw : w.files.isFolder (locationOf (n :: up)) = true
    · rwa [show folderOf w (n :: up) = n :: up from if_pos hw]
    · rw [show folderOf w (n :: up) = up from if_neg hw]
      exact h.tail

def settle (given own : Settings) (codes : Text → Prop) : Text → Prop :=
  given.adjust (own.adjust codes)

theorem adjust_settle (given own : Settings) (codes : Text → Prop) :
    given.adjust (settle given own codes) = settle given own codes := given.adjust_adjust _

theorem settle_settle (given own : Settings) (codes : Text → Prop) :
    settle given own (settle given own codes) = settle given own codes := by
  funext code
  simp only [settle,Settings.adjust,eq_iff_iff]
  grind

/-- The names lead to a folder that takes the standard list for its own, after its settings changed
it. -/
structure InPlace (w : Workspace) (given : Settings) (names : List Text) (own : Settings) : Prop where
  proper : Proper names
  plan : planned w given (folderOf w names) = .ok (.fresh own)
  start : own.start = .ok .standard

def Changed (w : Workspace) (given : Settings) (standard codes : Text → Prop) : Prop :=
  ∃ names own, InPlace w given names own ∧ codes = settle given own standard

/-- A lookup of nothing but these names succeeds and leaves the standard list as it is. -/
inductive Apart (w : Workspace) (given : Settings) : List Text → Prop where
  | fresh {names : List Text} {own : Settings} {st : Start}
    (hp : planned w given (folderOf w names) = .ok (.fresh own)) (hs : own.start = .ok st)
    (hst : st ≠ .standard) : Apart w given names
  | borrowed {names : List Text} (hp : planned w given (folderOf w names) = .ok .borrow)
    (ha : Apart w given (folderOf w names).tail) : Apart w given names
  | merged {names : List Text} {own : Settings} {st : Start}
    (hp : planned w given (folderOf w names) = .ok (.merge own)) (hs : own.start = .ok st)
    (ha : Apart w given (folderOf w names).tail) : Apart w given names

/-- The names lead to a folder that starts from a copy of the standard list, which nothing above it
changes. -/
structure Copying (w : Workspace) (given : Settings) (names : List Text) (own : Settings) : Prop where
  proper : Proper names
  plan : planned w given (folderOf w names) = .ok (.fresh own) ∨
    planned w given (folderOf w names) = .ok (.merge own)
  start : own.start = .ok .copied
  apart : Apart w given names

/-- All folders that change the standard list make the same of it, and folders that copy it get the
same codes from it before and after that. -/
structure Harmonious (w : Workspace) (given : Settings) (standard : Text → Prop) : Prop where
  same : ∀ {codes codes'}, Changed w given standard codes → Changed w given standard codes' →
    codes = codes'
  copies : ∀ {names own codes}, Copying w given names own → Changed w given standard codes →
    settle given own codes = settle given own standard

theorem adjust_changed {standard codes : Text → Prop} (h : Changed w given standard codes) :
    given.adjust codes = codes := by
  obtain ⟨names,own,-,rfl⟩ := h
  exact adjust_settle given own standard

/-! ### Ledgers after a lookup -/

theorem close_closed (ho : o.codes = none) (hc : given.adjust (l.codes c.codes) = l.codes c.codes)
    (folder : List Text) : close given o l folder c = l.keep folder (overriddenBy o c) := by
  have hcodes : (overriddenBy o c).codes = c.codes := by simp [overriddenBy,ho]
  simp only [close,Ledger.keep,Ledger.adjust,Ledger.put,hcodes,hc]
  congr 1
  funext p
  split
  · rename_i hp
    rw [hp]
  · rfl

theorem close_adjust {origin : Origin} {own : Settings} (ho : o.codes = none) (hc : c.codes = origin)
    (folder : List Text) :
    close given o (l.adjust origin own) folder c =
      (l.put origin (settle given own (l.codes origin))).keep folder (overriddenBy o c) := by
  have hcodes : (overriddenBy o c).codes = origin := by simp [overriddenBy,ho,hc]
  simp only [close,Ledger.keep,Ledger.adjust,Ledger.put,hcodes,if_true]
  congr 1
  funext p
  by_cases hp : p = origin <;> simp [hp,settle]


theorem close_put {origin : Origin} {own : Settings} {codes : Text → Prop} (ho : o.codes = none)
    (hc : c.codes = origin) (folder : List Text) :
    close given o ((l.put origin codes).adjust origin own) folder c =
      (l.put origin (settle given own codes)).keep folder (overriddenBy o c) := by
  rw [close_adjust ho hc]
  simp only [Ledger.put,Ledger.keep,if_true]
  congr 1
  funext p
  split <;> rfl

theorem keep_known {folder : List Text} (hk : l.known folder = some c) : l.keep folder c = l := by
  obtain ⟨codes,known⟩ := l
  simp only [Ledger.keep,Ledger.mk.injEq,true_and]
  funext f
  split
  · rename_i hf
    rw [hf]
    exact hk.symm
  · rfl

theorem settle_changed {standard codes : Text → Prop} {own : Settings}
    (hsame : ∀ {codes codes'}, Changed w given standard codes → Changed w given standard codes' →
      codes = codes')
    (hi : InPlace w given names own) (hc : codes = standard ∨ Changed w given standard codes) :
    settle given own codes = settle given own standard := by
  rcases hc with rfl | hc
  · rfl
  · rw [hsame hc ⟨names,own,hi,rfl⟩,settle_settle]

theorem Harmonious.settle_copied {standard codes codes' : Text → Prop} {own : Settings}
    (hh : Harmonious w given standard) (hn : Proper names)
    (hp : planned w given (folderOf w names) = .ok (.fresh own) ∨
      planned w given (folderOf w names) = .ok (.merge own)) (hst : own.start = .ok .copied)
    (hc : codes = standard ∨ Changed w given standard codes)
    (hc' : Apart w given names ∧ codes' = standard ∨ Changed w given standard codes ∧ codes' = codes) :
    settle given own codes' = settle given own codes := by
  rcases hc' with ⟨ha,rfl⟩ | ⟨-,rfl⟩
  · rcases hc with rfl | hc
    · rfl
    · exact (hh.copies ⟨hn,hp,hst,ha⟩ hc).symm
  · rfl

/-! ### Lookups after others -/

/-- What holds of a configuration that is kept: it has the command line behind it, and it is what a
lookup of nothing but its folder gives, with the same codes. -/
structure Kept (w : Workspace) (given : Settings) (o : Override) (l₀ l : Ledger) (names : List Text)
    (c : Config) : Prop where
  overridden : overriddenBy o c = c
  closed : given.adjust (l.codes c.codes) = l.codes c.codes
  shared : c.codes = .standard ∧ Changed w given (l₀.codes .standard) (l.codes .standard) ∨
    ∃ folder, c.codes = .folder folder ∧ l.known folder ≠ none
  lone : ∃ l', Looked w given o l₀ names (.ok c) l' ∧ l'.codes c.codes = l.codes c.codes ∧
    (Apart w given names ∧ l'.codes .standard = l₀.codes .standard ∨
      Changed w given (l₀.codes .standard) (l.codes .standard) ∧
        l'.codes .standard = l.codes .standard)

structure Steady (w : Workspace) (given : Settings) (o : Override) (l₀ l : Ledger) : Prop where
  standard : l.codes .standard = l₀.codes .standard ∨
    Changed w given (l₀.codes .standard) (l.codes .standard)
  kept : ∀ {names c}, l.known (folderOf w names) = some c → Kept w given o l₀ l names c

structure Grows (w : Workspace) (given : Settings) (standard : Text → Prop) (l l' : Ledger) : Prop where
  standard : Changed w given standard (l.codes .standard) → l'.codes .standard = l.codes .standard
  known : ∀ {folder}, l.known folder ≠ none → l'.known folder ≠ none
  folder : ∀ {folder}, l.known folder ≠ none → l'.codes (.folder folder) = l.codes (.folder folder)

theorem Kept.grow (hk : Kept w given o l₀ l names c)
    (hg : Grows w given (l₀.codes .standard) l l') : Kept w given o l₀ l' names c := by
  obtain ⟨hover,closed,shared,l₁,hl,hcodes,hstd⟩ := hk
  have hc : l'.codes c.codes = l.codes c.codes := by
    rcases shared with ⟨hc,hch⟩ | ⟨folder,hc,hf⟩
    · rw [hc,hg.standard hch]
    · rw [hc,hg.folder hf]
  refine ⟨hover,by rw [hc,closed],?_,l₁,hl,by rw [hc,hcodes],?_⟩
  · refine shared.imp (fun ⟨hc,hch⟩ => ⟨hc,?_⟩) fun ⟨folder,hc,hf⟩ => ⟨folder,hc,hg.known hf⟩
    rwa [hg.standard hch]
  · refine hstd.imp_right fun ⟨hch,he⟩ => ?_
    rw [hg.standard hch]
    exact ⟨hch,he⟩

theorem Kept.congr {names' : List Text} (hk : Kept w given o l₀ l names c)
    (hf : folderOf w names' = folderOf w names) : Kept w given o l₀ l names' c := by
  obtain ⟨hover,closed,shared,l₁,hl,hcodes,hstd⟩ := hk
  refine ⟨hover,closed,shared,l₁,hl.congr hf,hcodes,hstd.imp_left fun ⟨ha,he⟩ => ⟨?_,he⟩⟩
  cases ha with
  | fresh hp hs hst => exact .fresh (hf ▸ hp) hs hst
  | borrowed hp ha => exact .borrowed (hf ▸ hp) (hf ▸ ha)
  | merged hp hs ha => exact .merged (hf ▸ hp) hs (hf ▸ ha)

theorem Steady.keep {l₁ : Ledger} (hs : Steady w given o l₀ l)
    (hg : Grows w given (l₀.codes .standard) l l₁) (hknown : l₁.known = l.known)
    (hstd : l₁.codes .standard = l₀.codes .standard ∨
      Changed w given (l₀.codes .standard) (l₁.codes .standard))
    (hk : Kept w given o l₀ (l₁.keep (folderOf w names) c) names c) :
    Steady w given o l₀ (l₁.keep (folderOf w names) c) := by
  refine ⟨hstd,fun {names' c'} hc' => ?_⟩
  by_cases hf : folderOf w names' = folderOf w names
  · simp only [Ledger.known_keep,hf,if_true,Option.some.injEq] at hc'
    exact hc' ▸ hk.congr hf
  · simp only [Ledger.known_keep,hf,if_false,hknown] at hc'
    refine (hs.kept hc').grow ⟨hg.standard,fun {folder} hne => ?_,hg.folder⟩
    by_cases hff : folder = folderOf w names
    · simp [hff]
    · simpa only [Ledger.known_keep,hff,if_false] using hg.known hne

theorem Steady.own {codes : Text → Prop} (hs : Steady w given o l₀ l)
    (hf : l.known (folderOf w names) = none) (hc : c.codes = .folder (folderOf w names))
    (hover : overriddenBy o c = c) (hcodes : given.adjust codes = codes)
    (hl : Looked w given o l₀ names (.ok c) l') (he : l'.codes (.folder (folderOf w names)) = codes)
    (hstd : Apart w given names ∧ l'.codes .standard = l₀.codes .standard ∨
      Changed w given (l₀.codes .standard) (l.codes .standard) ∧
        l'.codes .standard = l.codes .standard) :
    Steady w given o l₀ ((l.put (.folder (folderOf w names)) codes).keep (folderOf w names) c) ∧
      Kept w given o l₀ ((l.put (.folder (folderOf w names)) codes).keep (folderOf w names) c)
        names c := by
  have hk : Kept w given o l₀ ((l.put (.folder (folderOf w names)) codes).keep (folderOf w names) c)
      names c := by
    refine ⟨hover,?_,.inr ⟨_,hc,by simp⟩,l',hl,?_,hstd⟩ <;> simp [hc,hcodes,he]
  refine ⟨hs.keep ⟨fun _ => rfl,id,fun {folder} hne => ?_⟩ rfl hs.standard hk,hk⟩
  have hne' : folder ≠ folderOf w names := fun h => hne (h ▸ hf)
  simp [hne']

theorem Steady.inPlace {own : Settings} (hh : Harmonious w given (l₀.codes .standard))
    (hs : Steady w given o l₀ l) (hi : InPlace w given names own) (hc : c.codes = .standard)
    (hover : overriddenBy o c = c) (hl : Looked w given o l₀ names (.ok c) l')
    (he : l'.codes .standard = settle given own (l₀.codes .standard)) :
    Steady w given o l₀ ((l.put .standard (settle given own (l.codes .standard))).keep
        (folderOf w names) c) ∧
      Kept w given o l₀ ((l.put .standard (settle given own (l.codes .standard))).keep
        (folderOf w names) c) names c := by
  have hset := settle_changed hh.same hi hs.standard
  have hch : Changed w given (l₀.codes .standard) (settle given own (l₀.codes .standard)) :=
    ⟨names,own,hi,rfl⟩
  have hk : Kept w given o l₀ ((l.put .standard (settle given own (l.codes .standard))).keep
      (folderOf w names) c) names c := by
    refine ⟨hover,?_,.inl ⟨hc,?_⟩,l',hl,?_,.inr ⟨?_,?_⟩⟩ <;> simp [hc,hset,adjust_settle,he,hch]
  refine ⟨hs.keep ⟨fun hc => ?_,id,fun _ => rfl⟩ rfl (.inr ?_) hk,hk⟩
  · rw [Ledger.codes_put,if_pos rfl,hset]
    exact hh.same hch hc
  · simp [hset,hch]

theorem Steady.borrowed (ho : o.codes = none) (h₀ : ∀ folder, l₀.known folder = none)
    (hs : Steady w given o l₀ l) (hp : planned w given (folderOf w names) = .ok .borrow)
    (hk : Kept w given o l₀ l (folderOf w names).tail c) :
    Steady w given o l₀ (close given o l (folderOf w names) c) ∧
      Kept w given o l₀ (close given o l (folderOf w names) c) names (overriddenBy o c) := by
  obtain ⟨l₁,hl₁,hcodes,hstd⟩ := hk.lone
  have hlone := Looked.borrowed (h₀ _) hp hl₁
  have hclosed : given.adjust (l₁.codes c.codes) = l₁.codes c.codes := by rw [hcodes,hk.closed]
  rw [close_closed ho hclosed,hk.overridden] at hlone
  rw [close_closed ho hk.closed,hk.overridden]
  have hknown {folder : List Text} (hne : l.known folder ≠ none) :
      (l.keep (folderOf w names) c).known folder ≠ none := by
    by_cases hf : folder = folderOf w names <;> simp [hf,hne]
  have hgrow : Grows w given (l₀.codes .standard) l (l.keep (folderOf w names) c) :=
    ⟨fun _ => rfl,hknown,fun _ => rfl⟩
  have hk' : Kept w given o l₀ (l.keep (folderOf w names) c) names c :=
    ⟨hk.overridden,hk.closed,(hk.grow hgrow).shared,_,hlone,hcodes,
      hstd.imp_left fun ⟨ha,he⟩ => ⟨.borrowed hp ha,he⟩⟩
  exact ⟨hs.keep ⟨fun _ => rfl,id,fun _ => rfl⟩ rfl hs.standard hk',hk'⟩

/-- A folder that has nothing to do with the one above starts from a list that is made for it. -/
theorem Steady.fresh {own : Settings} {st : Start} {codes codes₀ : Text → Prop} (ho : o.codes = none)
    (h₀ : ∀ folder, l₀.known folder = none) (hs : Steady w given o l₀ l)
    (hk : l.known (folderOf w names) = none)
    (hp : planned w given (folderOf w names) = .ok (.fresh own)) (hst : own.start = .ok st)
    (hl : st.list l = some codes) (hl₀ : st.list l₀ = some codes₀)
    (he : settle given own codes₀ = settle given own codes)
    {made : Origin × Ledger} (hm : l.make (.folder (folderOf w names)) own st = made) :
    Steady w given o l₀ (close given o made.2 (folderOf w names) (created made.1 own)) ∧
      Kept w given o l₀ (close given o made.2 (folderOf w names) (created made.1 own)) names
        (overriddenBy o (created made.1 own)) := by
  have hlone := Looked.fresh (o := o) (h₀ _) hp hst
  have hne : st ≠ .standard := by
    rintro rfl
    cases hl
  subst hm
  have hc : (created (.folder (folderOf w names)) own).codes = .folder (folderOf w names) := rfl
  simp only [Ledger.make_new hl₀,close_put ho hc] at hlone
  simp only [Ledger.make_new hl,close_put ho hc]
  exact hs.own hk (by simp [overriddenBy,ho,created]) (overriddenBy_overriddenBy ..)
    (adjust_settle ..) hlone (by simpa using he) (.inl ⟨.fresh hp hst hne,by simp⟩)

theorem Steady.merged {own : Settings} {st : Start} (hh : Harmonious w given (l₀.codes .standard))
    (ho : o.codes = none) (h₀ : ∀ folder, l₀.known folder = none) (hs : Steady w given o l₀ l)
    (hn : Proper names) (hf : l.known (folderOf w names) = none)
    (hp : planned w given (folderOf w names) = .ok (.merge own)) (hst : own.start = .ok st)
    (hk : Kept w given o l₀ l (folderOf w names).tail c) {l' : Ledger}
    (hl' : (l.put (.folder (folderOf w names)) ((st.list l).getD (l.codes c.codes))).adjust
      (.folder (folderOf w names)) own = l') :
    Steady w given o l₀ (close given o l' (folderOf w names)
        (merged (.folder (folderOf w names)) c own)) ∧
      Kept w given o l₀ (close given o l' (folderOf w names)
        (merged (.folder (folderOf w names)) c own)) names
        (overriddenBy o (merged (.folder (folderOf w names)) c own)) := by
  obtain ⟨l₁,hl₁,hcodes,hstd⟩ := hk.lone
  have hlone := Looked.merged (h₀ _) hp hl₁ hst
  have hstd' := hstd.imp_left fun ⟨ha,he⟩ => And.intro (Apart.merged hp hst ha) he
  have he : settle given own ((st.list l₁).getD (l₁.codes c.codes)) =
      settle given own ((st.list l).getD (l.codes c.codes)) := by
    cases st with
    | standard => exact congrArg (settle given own) hcodes
    | copied => exact hh.settle_copied hn (.inr hp) hst hs.standard hstd'
    | given codes => rfl
  have hc : (Lookup.merged (.folder (folderOf w names)) c own).codes = .folder (folderOf w names) := rfl
  subst hl'
  rw [close_put ho hc] at hlone ⊢
  exact hs.own hf (by simp [overriddenBy,ho,hc]) (overriddenBy_overriddenBy ..) (adjust_settle ..) hlone
    (by simpa using he) hstd'

def Agrees (w : Workspace) (given : Settings) (o : Override) (l₀ l : Ledger) (names : List Text) :
    Except ConfigFault Config → Prop
  | .ok c => Kept w given o l₀ l names c
  | .error e => ∃ l', Looked w given o l₀ names (.error e) l'

theorem Steady.step (hh : Harmonious w given (l₀.codes .standard)) (ho : o.codes = none)
    (h₀ : ∀ folder, l₀.known folder = none) (hs : Steady w given o l₀ l) (hn : Proper names)
    (h : Looked w given o l names r l') :
    Steady w given o l₀ l' ∧ Agrees w given o l₀ l' names r := by
  induction h with
  | known hk =>
    have hkept := hs.kept hk
    rw [close_closed ho hkept.closed,hkept.overridden,keep_known hk]
    exact ⟨hs,hkept⟩
  | unread hk hp => exact ⟨hs,l₀,.unread (h₀ _) hp⟩
  | borrowed hk hp ha ih =>
    obtain ⟨hs₁,hkept⟩ := ih (proper_folderOf hn).tail
    exact hs₁.borrowed ho h₀ hp hkept
  | refused hk hp hst => exact ⟨hs,l₀,.refused (h₀ _) hp hst⟩
  | @fresh names own st hk hp hst =>
    cases st with
    | standard =>
      have hlone := Looked.fresh (o := o) (h₀ _) hp hst
      have hc : (created .standard own).codes = .standard := rfl
      simp only [Ledger.make_standard,close_adjust ho hc] at hlone ⊢
      exact hs.inPlace hh ⟨hn,hp,hst⟩ (by simp [overriddenBy,ho,created])
        (overriddenBy_overriddenBy ..) hlone (by simp)
    | copied =>
      refine hs.fresh ho h₀ hk hp hst rfl rfl ?_ rfl
      exact hh.settle_copied hn (.inl hp) hst hs.standard (.inl ⟨.fresh hp hst (by simp),rfl⟩)
    | given codes => exact hs.fresh ho h₀ hk hp hst rfl rfl rfl rfl
  | stopped hk hp hb ha ih =>
    obtain ⟨hs₁,l₂,hl₂⟩ := ih (proper_folderOf hn).tail
    exact ⟨hs₁,l₂,.stopped (h₀ _) hp hb hl₂⟩
  | unmerged hk hp ha hst ih =>
    obtain ⟨hs₁,hkept⟩ := ih (proper_folderOf hn).tail
    obtain ⟨l₂,hl₂,-⟩ := hkept.lone
    exact ⟨hs₁,l₂,.unmerged (h₀ _) hp hl₂ hst⟩
  | merged hk hp ha hst ih =>
    obtain ⟨hs₁,hkept⟩ := ih (proper_folderOf hn).tail
    exact hs₁.merged hh ho h₀ hn (ha.unknown hp (by simp) hk) hp hst hkept rfl

inductive Reached (w : Workspace) (given : Settings) (o : Override) (l₀ : Ledger) : Ledger → Prop where
  | start : Reached w given o l₀ l₀
  | step {l l' : Ledger} {names : List Text} {r : Except ConfigFault Config}
    (hl : Reached w given o l₀ l) (hn : Proper names) (h : Looked w given o l names r l') :
    Reached w given o l₀ l'

structure Answer where
  codes : Text → Prop
  files : Value
  folders : Value
  ignoreDecorators : Value
  propertyDecorators : Value

/-- What a configuration says, with the codes that are in its list at present. -/
def answerIn (l : Ledger) (c : Config) : Answer where
  codes := l.codes c.codes
  files := c.files
  folders := c.folders
  ignoreDecorators := c.ignoreDecorators
  propertyDecorators := c.propertyDecorators

def Unaffected (w : Workspace) (given : Settings) (o : Override) (l₀ : Ledger) : Prop :=
  ∀ {l l' l₁ names r r'}, Reached w given o l₀ l → Proper names → Looked w given o l names r l' →
    Looked w given o l₀ names r' l₁ → r.map (answerIn l') = r'.map (answerIn l₁)

theorem Harmonious.steady (hh : Harmonious w given (l₀.codes .standard)) (ho : o.codes = none)
    (h₀ : ∀ folder, l₀.known folder = none) (hl : Reached w given o l₀ l) :
    Steady w given o l₀ l := by
  induction hl with
  | start => exact ⟨.inl rfl,fun hk => by simp [h₀] at hk⟩
  | step hl hn h ih => exact (ih.step hh ho h₀ hn h).1

theorem Harmonious.unaffected (hh : Harmonious w given (l₀.codes .standard)) (ho : o.codes = none)
    (h₀ : ∀ folder, l₀.known folder = none) : Unaffected w given o l₀ := by
  intro l l' l₁ names r r' hl hn h h'
  have ha := ((hh.steady ho h₀ hl).step hh ho h₀ hn h).2
  cases r with
  | ok c =>
    obtain ⟨l₂,hl₂,hcodes,-⟩ := ha.lone
    obtain ⟨rfl,rfl⟩ := h'.unique hl₂
    simp [Except.map,answerIn,hcodes]
  | error e =>
    obtain ⟨l₂,hl₂⟩ := ha
    obtain ⟨rfl,-⟩ := h'.unique hl₂
    rfl

/-! ### Where the order of lookups shows -/

theorem Looked.total (w : Workspace) (given : Settings) (o : Override) (l : Ledger) (names : List Text) :
    ∃ r l', Looked w given o l names r l' := by
  induction hn : names.length using Nat.strongRecOn generalizing names with
  | ind n ih =>
    cases hk : l.known (folderOf w names) with
    | some c => exact ⟨_,_,.known hk⟩
    | none =>
      cases hp : planned w given (folderOf w names) with
      | error e => exact ⟨_,_,.unread hk hp⟩
      | ok p =>
        have habove (hne : ∀ own, p ≠ .fresh own) :
            ∃ r l', Looked w given o l (folderOf w names).tail r l' := by
          have h₁ := tail_length hp hne
          have h₂ := @folderOf_length w names
          exact ih _ (by omega) _ rfl
        cases p with
        | borrow =>
          obtain ⟨r,l',ha⟩ := habove (by simp)
          cases r with
          | ok c => exact ⟨_,_,.borrowed hk hp ha⟩
          | error e => exact ⟨_,_,.stopped hk hp (.inl rfl) ha⟩
        | fresh own =>
          cases hs : own.start with
          | ok st => exact ⟨_,_,.fresh hk hp hs⟩
          | error e => exact ⟨_,_,.refused hk hp hs⟩
        | merge own =>
          obtain ⟨r,l',ha⟩ := habove (by simp)
          cases r with
          | error e => exact ⟨_,_,.stopped hk hp (.inr ⟨own,rfl⟩) ha⟩
          | ok a =>
            cases hs : own.start with
            | ok st => exact ⟨_,_,.merged hk hp ha hs⟩
            | error e => exact ⟨_,_,.unmerged hk hp ha hs⟩

theorem codes_overriddenBy (ho : o.codes = none) (c : Config) : (overriddenBy o c).codes = c.codes := by
  simp [overriddenBy,ho]

theorem InPlace.looked {own : Settings} (hi : InPlace w given names own) (ho : o.codes = none)
    (hk : l.known (folderOf w names) = none) :
    ∃ c l', c.codes = .standard ∧ Looked w given o l names (.ok c) l' ∧
      l'.codes .standard = settle given own (l.codes .standard) ∧
      ∀ folder, l'.known folder = if folder = folderOf w names then some c else l.known folder := by
  have h := Looked.fresh (o := o) hk hi.plan hi.start
  have hc : (created .standard own).codes = .standard := rfl
  simp only [Ledger.make_standard,close_adjust ho hc] at h
  exact ⟨_,_,codes_overriddenBy ho _,h,by simp,fun _ => rfl⟩

theorem Apart.looked (ho : o.codes = none) (h₀ : ∀ folder, l.known folder = none)
    (ha : Apart w given names) : ∃ c l', Looked w given o l names (.ok c) l' ∧ c.codes ≠ .standard ∧
      l'.codes .standard = l.codes .standard := by
  induction ha with
  | @fresh names own st hp hs hst =>
    have hl := Looked.fresh (o := o) (h₀ _) hp hs
    have hc : (created (.folder (folderOf w names)) own).codes = .folder (folderOf w names) := rfl
    cases hlist : st.list l with
    | none => cases st <;> simp_all [Start.list]
    | some codes =>
      simp only [Ledger.make_new hlist,close_put ho hc] at hl
      exact ⟨_,_,hl,by simp [codes_overriddenBy ho,hc],by simp⟩
  | @borrowed names hp ha ih =>
    obtain ⟨c,l₁,hl,hc,hstd⟩ := ih
    refine ⟨_,_,.borrowed (h₀ _) hp hl,by rwa [codes_overriddenBy ho],?_⟩
    simp [close,codes_overriddenBy ho,hc.symm,hstd]
  | @merged names own st hp hs ha ih =>
    obtain ⟨a,l₁,hl,-,hstd⟩ := ih
    have hl' := Looked.merged (h₀ _) hp hl hs
    have hc : (Lookup.merged (.folder (folderOf w names)) a own).codes = .folder (folderOf w names) := rfl
    rw [close_put ho hc] at hl'
    exact ⟨_,_,hl',by simp [codes_overriddenBy ho,hc],by simp [hstd]⟩

/-- Where all folders make the same of the standard list, no lookup changes it once more. -/
theorem Looked.changed_stays (ho : o.codes = none) {standard : Text → Prop}
    (hsame : ∀ {codes codes'}, Changed w given standard codes → Changed w given standard codes' →
      codes = codes') (hn : Proper names) (hc : Changed w given standard (l.codes .standard))
    (h : Looked w given o l names r l') : l'.codes .standard = l.codes .standard := by
  have hclose {l₁ : Ledger} {c : Config} (folder : List Text)
      (he : l₁.codes .standard = l.codes .standard) :
      (close given o l₁ folder c).codes .standard = l.codes .standard := by
    by_cases hs : .standard = c.codes
    · simp [close,codes_overriddenBy ho,← hs,he,adjust_changed hc]
    · simp [close,codes_overriddenBy ho,hs,he]
  induction h with
  | known hk => exact hclose _ rfl
  | unread hk hp => rfl
  | borrowed hk hp ha ih => exact hclose _ (ih (proper_folderOf hn).tail)
  | refused hk hp hs => rfl
  | @fresh names own st hk hp hs =>
    cases st with
    | standard =>
      have hi : InPlace w given names own := ⟨hn,hp,hs⟩
      have hset : settle given own (l.codes .standard) = l.codes .standard :=
        (settle_changed hsame hi (.inr hc)).trans (hsame ⟨names,own,hi,rfl⟩ hc)
      have hcr : (created .standard own).codes = .standard := rfl
      simp only [Ledger.make_standard,close_adjust ho hcr]
      simpa using hset
    | copied => exact hclose _ (by simp [Ledger.make,Start.list])
    | given codes => exact hclose _ (by simp [Ledger.make,Start.list])
  | stopped hk hp hb ha ih => exact ih (proper_folderOf hn).tail
  | unmerged hk hp ha hs ih => exact ih (proper_folderOf hn).tail
  | merged hk hp ha hs ih => exact hclose _ (by simp [ih (proper_folderOf hn).tail])

/-- The codes of a folder that copies the standard list, which nothing above it changes. -/
theorem Copying.codes {own : Settings} (hy : Copying w given names own) (ho : o.codes = none)
    (hk : l.known (folderOf w names) = none)
    (hstd : planned w given (folderOf w names) = .ok (.merge own) → ∀ {r l₁},
      Looked w given o l (folderOf w names).tail r l₁ → l₁.codes .standard = l.codes .standard)
    (h : Looked w given o l names (.ok c) l') :
    l'.codes c.codes = settle given own (l.codes .standard) := by
  have hplan := hy.plan
  have hstart := hy.start
  cases h with
  | known hk' => simp [hk] at hk'
  | borrowed hk hp ha => simp [hp] at hplan
  | @fresh _ own' st hk hp hs =>
    obtain rfl : own' = own := by simpa [hp] using hplan
    obtain rfl : st = .copied := by simpa [hs] using hstart
    have hc : (created (.folder (folderOf w names)) own').codes = .folder (folderOf w names) := rfl
    simp only [Ledger.make_new (show Start.list l .copied = some (l.codes .standard) from rfl),
      close_put ho hc,codes_overriddenBy ho,hc]
    simp
  | @merged l₁ _ own' a st hk hp ha hs =>
    obtain rfl : own' = own := by simpa [hp] using hplan
    obtain rfl : st = .copied := by simpa [hs] using hstart
    have hc : (Lookup.merged (.folder (folderOf w names)) a own').codes = .folder (folderOf w names) := rfl
    rw [close_put ho hc,codes_overriddenBy ho,hc]
    simp [Start.list,hstd hp ha]

theorem codes_of_answers {c c' : Config}
    (h : Except.map (answerIn l) (.ok c : Except ConfigFault Config) = .map (answerIn l') (.ok c')) :
    l.codes c.codes = l'.codes c'.codes :=
  congrArg Answer.codes (Except.ok.inj h)

/-- Two folders that change the standard list make the same of it, if the order of lookups does not
show. -/
theorem Unaffected.same (hu : Unaffected w given o l₀) (ho : o.codes = none)
    (h₀ : ∀ folder, l₀.known folder = none) {codes codes' : Text → Prop}
    (hc : Changed w given (l₀.codes .standard) codes)
    (hc' : Changed w given (l₀.codes .standard) codes') : codes = codes' := by
  obtain ⟨x,own,hx,rfl⟩ := hc
  obtain ⟨y,own',hy,rfl⟩ := hc'
  by_cases hf : folderOf w y = folderOf w x
  · obtain rfl : own = own' := by simpa [hf,hx.plan] using hy.plan
    rfl
  -- One of them, the other one, and the first one again, which is known by then.
  obtain ⟨c,l₁,hc,h₁,hstd₁,hk₁⟩ := hx.looked ho (h₀ _)
  have hy₁ : l₁.known (folderOf w y) = none := by rw [hk₁,if_neg hf,h₀]
  obtain ⟨d,l₂,hd,h₂,hstd₂,hk₂⟩ := hy.looked ho hy₁
  have hx₂ : l₂.known (folderOf w x) = some c := by rw [hk₂,if_neg (Ne.symm hf),hk₁,if_pos rfl]
  have h₃ := @Looked.known w given o l₂ x c hx₂
  obtain ⟨e,l₄,he,h₄,hstd₄,-⟩ := hy.looked ho (h₀ _)
  have hr₁ := Reached.step .start hx.proper h₁
  have hsecond : l₂.codes .standard = l₄.codes .standard := by
    have h := codes_of_answers (hu hr₁ hy.proper h₂ h₄)
    rwa [hd,he] at h
  have hthird : given.adjust (l₂.codes .standard) = l₁.codes .standard := by
    have h := codes_of_answers (hu (hr₁.step hy.proper h₂) hx.proper h₃ h₁)
    simpa [close,codes_overriddenBy ho,hc] using h
  rw [hstd₂,adjust_settle,← hstd₂,hsecond] at hthird
  rw [← hstd₁,← hstd₄,hthird]

/-- A folder that copies the standard list does not see whether another one has changed it, if the
order of lookups does not show. -/
theorem Unaffected.copies {own : Settings} {codes : Text → Prop} (hu : Unaffected w given o l₀)
    (ho : o.codes = none) (h₀ : ∀ folder, l₀.known folder = none) (hy : Copying w given names own)
    (hc : Changed w given (l₀.codes .standard) codes) :
    settle given own codes = settle given own (l₀.codes .standard) := by
  have habove (hp : planned w given (folderOf w names) = .ok (.merge own))
      {r : Except ConfigFault Config} {l₁ : Ledger}
      (ha : Looked w given o l₀ (folderOf w names).tail r l₁) :
      l₁.codes .standard = l₀.codes .standard := by
    cases hy.apart with
    | fresh hp' => simp [hp] at hp'
    | borrowed hp' => simp [hp] at hp'
    | merged hp' hs ha' =>
      obtain ⟨_,_,h',-,hstd⟩ := ha'.looked ho h₀
      obtain ⟨-,rfl⟩ := ha.unique h'
      exact hstd
  obtain ⟨c,l,h,-⟩ := hy.apart.looked ho h₀
  have hfirst := hy.codes ho (h₀ _) habove h
  obtain ⟨x,own',hx,rfl⟩ := hc
  obtain ⟨d,l₁,-,h₁,hstd₁,hk₁⟩ := hx.looked ho (h₀ _)
  have hf : folderOf w names ≠ folderOf w x := by
    intro hf
    have hp := hy.plan
    rw [hf,hx.plan] at hp
    obtain rfl : own' = own := by simpa using hp
    simpa [hx.start] using hy.start
  have hy₁ : l₁.known (folderOf w names) = none := by rw [hk₁,if_neg hf,h₀]
  obtain ⟨r,l₂,h₂⟩ := Looked.total w given o l₁ names
  have hr₁ := Reached.step .start hx.proper h₁
  have he := hu hr₁ hy.proper h₂ h
  cases r with
  | error e => cases he
  | ok c' =>
    have hch : Changed w given (l₀.codes .standard) (l₁.codes .standard) := ⟨x,own',hx,hstd₁⟩
    have hsecond := hy.codes ho hy₁
      (fun _ {_ _} ha => ha.changed_stays ho (hu.same ho h₀) (proper_folderOf hy.proper).tail hch) h₂
    rw [← hstd₁,← hsecond,← hfirst]
    exact codes_of_answers he

theorem unaffected_iff (ho : o.codes = none) (h₀ : ∀ folder, l₀.known folder = none) :
    Unaffected w given o l₀ ↔ Harmonious w given (l₀.codes .standard) :=
  ⟨fun hu => ⟨hu.same ho h₀,hu.copies ho h₀⟩,fun hh => hh.unaffected ho h₀⟩

/-! ### Codes from the command line -/

/-- The configurations that are kept are what lookups by themselves give, but for the lists of codes. -/
def Repeats (w : Workspace) (given : Settings) (o : Override) (l₀ l : Ledger) : Prop :=
  ∀ names c, l.known (folderOf w names) = some c →
    overriddenBy o c = c ∧ ∃ l', Looked w given o l₀ names (.ok c) l'

theorem Repeats.close {l₁ : Ledger} (hr : Repeats w given o l₀ l) (hl : l₁.known = l.known)
    (h : Looked w given o l₀ names (.ok (overriddenBy o c)) l') :
    Repeats w given o l₀ (close given o l₁ (folderOf w names) c) := by
  intro names' c' hk
  by_cases hf : folderOf w names' = folderOf w names
  · simp only [Lookup.close,Ledger.known_keep,hf,if_true,Option.some.injEq] at hk
    exact hk ▸ ⟨overriddenBy_overriddenBy o c,l',h.congr hf⟩
  · simp only [Lookup.close,Ledger.known_keep,hf,if_false,Ledger.known_adjust,hl] at hk
    exact hr _ _ hk

theorem Repeats.step (h₀ : ∀ folder, l₀.known folder = none) (hr : Repeats w given o l₀ l)
    (h : Looked w given o l names r l') :
    Repeats w given o l₀ l' ∧ ∃ l₁, Looked w given o l₀ names r l₁ := by
  induction h with
  | known hk =>
    obtain ⟨hover,l₁,hl₁⟩ := hr _ _ hk
    rw [hover]
    exact ⟨hr.close rfl (hover.symm ▸ hl₁),l₁,hl₁⟩
  | unread hk hp => exact ⟨hr,_,.unread (h₀ _) hp⟩
  | borrowed hk hp ha ih =>
    obtain ⟨hr₁,l₁,hl₁⟩ := ih
    have h := Looked.borrowed (h₀ _) hp hl₁
    exact ⟨hr₁.close rfl h,_,h⟩
  | refused hk hp hs => exact ⟨hr,_,.refused (h₀ _) hp hs⟩
  | @fresh names own st hk hp hs =>
    have h := Looked.fresh (o := o) (h₀ _) hp hs
    cases st <;> exact ⟨hr.close rfl h,_,h⟩
  | stopped hk hp hb ha ih =>
    obtain ⟨hr₁,l₁,hl₁⟩ := ih
    exact ⟨hr₁,_,.stopped (h₀ _) hp hb hl₁⟩
  | unmerged hk hp ha hs ih =>
    obtain ⟨hr₁,l₁,hl₁⟩ := ih
    exact ⟨hr₁,_,.unmerged (h₀ _) hp hl₁ hs⟩
  | merged hk hp ha hs ih =>
    obtain ⟨hr₁,l₁,hl₁⟩ := ih
    have h := Looked.merged (h₀ _) hp hl₁ hs
    exact ⟨hr₁.close rfl h,_,h⟩

theorem Reached.repeats (h₀ : ∀ folder, l₀.known folder = none) (hl : Reached w given o l₀ l) :
    Repeats w given o l₀ l := by
  induction hl with
  | start => exact fun _ _ hk => by simp [h₀] at hk
  | step hl hn h ih => exact (ih.step h₀ h).1

/-- All but the codes in the lists is the same as after the first lookup. -/
theorem Looked.same_result {r' : Except ConfigFault Config} {l₁ : Ledger}
    (h₀ : ∀ folder, l₀.known folder = none) (hl : Reached w given o l₀ l)
    (h : Looked w given o l names r l') (h' : Looked w given o l₀ names r' l₁) : r = r' := by
  obtain ⟨l₂,h₂⟩ := ((hl.repeats h₀).step h₀ h).2
  exact (h₂.unique h').1

theorem Looked.codes_override {origin : Origin} (ho : o.codes = some origin)
    (hstd : origin ≠ .standard) (hfolder : ∀ folder, origin ≠ .folder folder)
    (hc : given.adjust (l.codes origin) = l.codes origin) (h : Looked w given o l names r l') :
    l'.codes origin = l.codes origin := by
  have hclose {l₁ : Ledger} {c : Config} (folder : List Text)
      (he : l₁.codes origin = l.codes origin) :
      (close given o l₁ folder c).codes origin = l.codes origin := by
    simp [close,overriddenBy,ho,he,hc]
  induction h with
  | known hk => exact hclose _ rfl
  | unread hk hp => rfl
  | borrowed hk hp ha ih => exact hclose _ ih
  | refused hk hp hs => rfl
  | @fresh names own st hk hp hs =>
    refine hclose _ ?_
    cases st <;> simp [Ledger.make,Start.list,hstd,hfolder]
  | stopped hk hp hb ha ih => exact ih
  | unmerged hk hp ha hs ih => exact ih
  | merged hk hp ha hs ih => exact hclose _ (by simp [hfolder,ih])

theorem Looked.overridden (h : Looked w given o l names (.ok c) l') : overriddenBy o c = c := by
  cases h <;> exact overriddenBy_overriddenBy o _

theorem Reached.codes_override {origin : Origin} (ho : o.codes = some origin)
    (hstd : origin ≠ .standard) (hfolder : ∀ folder, origin ≠ .folder folder)
    (hc : given.adjust (l₀.codes origin) = l₀.codes origin) (hl : Reached w given o l₀ l) :
    l.codes origin = l₀.codes origin := by
  induction hl with
  | start => rfl
  | step hl hn h ih => exact (h.codes_override ho hstd hfolder (by rw [ih,hc])).trans ih

/-- The list of codes of a configuration on which the command line has its word. -/
theorem codes_of_overridden {origin : Origin} (ho : o.codes = some origin) (h : overriddenBy o c = c) :
    c.codes = origin := by
  rw [← h]
  simp [overriddenBy,ho]

theorem unaffected_override {origin : Origin} (ho : o.codes = some origin)
    (hstd : origin ≠ .standard) (hfolder : ∀ folder, origin ≠ .folder folder)
    (hc : given.adjust (l₀.codes origin) = l₀.codes origin) (h₀ : ∀ folder, l₀.known folder = none) :
    Unaffected w given o l₀ := by
  intro l l' l₁ names r r' hl hn h h'
  obtain rfl := h.same_result h₀ hl h'
  cases r with
  | error e => rfl
  | ok c =>
    have he := (hl.step hn h).codes_override ho hstd hfolder hc
    have he' := (Reached.start.step hn h').codes_override ho hstd hfolder hc
    simp [Except.map,answerIn,codes_of_overridden ho h.overridden,he,he']

end DocLint.Lookup
