import DocLint.Publicity

/-!
Files in private folders. The folders that hold a file are looked at one after the other, its own first, up
to one with a private name, one of the search path or one without a name. The answer depends on the folders
between the file and the first of these alone.
-/

set_option autoImplicit false

namespace DocLint

/-- A name is private if it opens with an underscore, unless two of them stand at both of its ends. -/
theorem isPrivateName_iff {name : Text} : isPrivateName name = true ↔
    "_".toList <+: name ∧ ¬("__".toList <+: name ∧ "__".toList <:+ name) := by
  simp only [isPrivateName,Text.isUnderscored,Text.isDunder,Bool.and_eq_true,Bool.not_eq_true',
    List.isPrefixOf_iff_prefix,← Bool.not_eq_true,List.isSuffixOf_iff_suffix,not_and]

namespace Path

variable {searchPath larger : List Path} {p q r : Path} {n : Nat} {b : Bool}

/-! ### The search -/

/-- The search from a folder upwards ends after so many steps with an answer. -/
inductive Ends (searchPath : List Path) : Path → Nat → Bool → Prop
  | top {p : Path} (htop : p.parent = p) : Ends searchPath p 0 false
  | searched {p : Path} (hsearched : p ∈ searchPath) : Ends searchPath p 0 false
  | found {p : Path} (htop : p.parent ≠ p) (hsearched : p ∉ searchPath) (hname : isPrivateName p.name = true) :
      Ends searchPath p 0 true
  | up {p : Path} {n : Nat} {b : Bool} (htop : p.parent ≠ p) (hsearched : p ∉ searchPath)
      (hname : isPrivateName p.name = false) (hrest : Ends searchPath p.parent n b) : Ends searchPath p (n + 1) b

def search (searchPath : List Path) (p : Path) : Bool :=
  (p.ancestry.takeWhile (!searchPath.contains ·)).any fun q => isPrivateName q.name

theorem parent_eq_self_iff : p.parent = p ↔ p.names = [] := by
  constructor
  · intro h
    have hlength := congrArg (fun q => q.names.length) h
    simp only [parent,List.length_dropLast] at hlength
    exact List.length_eq_zero_iff.mp (by omega)
  · intro h
    cases p
    cases h
    rfl

theorem names_eq (h : p.names ≠ []) : p.names = p.parent.names ++ [p.name] := by
  rw [parent,name,List.getLastD_eq_getLast?,List.getLast?_eq_some_getLast h,Option.getD_some]
  exact (List.dropLast_concat_getLast h).symm

theorem beginnings_concat {α : Type} (as : List α) (a : α) :
    beginnings (as ++ [a]) = (as ++ [a]) :: beginnings as := by
  induction as with
  | nil => rfl
  | cons b as ih =>
    rw [List.cons_append,beginnings,ih]
    rfl

theorem ancestry_of_top (h : p.parent = p) : p.ancestry = [] := by
  rw [ancestry,parent_eq_self_iff.mp h]
  rfl

theorem ancestry_of_parent (h : p.parent ≠ p) : p.ancestry = p :: p.parent.ancestry := by
  have hnames := names_eq (mt parent_eq_self_iff.mpr h)
  rw [ancestry,hnames,beginnings_concat,← hnames]
  rfl

theorem search_of_top (h : p.parent = p) : search searchPath p = false := by
  rw [search,ancestry_of_top h]
  rfl

theorem search_of_mem (h : p ∈ searchPath) : search searchPath p = false := by
  by_cases htop : p.parent = p
  · exact search_of_top htop
  · rw [search,ancestry_of_parent htop,List.takeWhile_cons_of_neg (by simpa using h)]
    rfl

theorem search_of_not_mem (htop : p.parent ≠ p) (h : p ∉ searchPath) :
    search searchPath p = (isPrivateName p.name || search searchPath p.parent) := by
  rw [search,ancestry_of_parent htop,List.takeWhile_cons_of_pos (by simpa using h),List.any_cons]
  rfl

/-- What holds of folders without a name, and of a folder if it holds of the one above, holds of all. -/
theorem climb {P : Path → Prop} (top : ∀ p, p.parent = p → P p) (up : ∀ p, p.parent ≠ p → P p.parent → P p)
    (p : Path) : P p := by
  by_cases h : p.parent = p
  · exact top p h
  · have hlt : p.parent.names.length < p.names.length := by
      have hpos := List.length_pos_iff.mpr (mt parent_eq_self_iff.mpr h)
      simp only [parent,List.length_dropLast]
      omega
    exact up p h (climb top up p.parent)
termination_by p.names.length

theorem exists_ends (searchPath : List Path) (p : Path) :
    ∃ n, n ≤ p.names.length ∧ Ends searchPath p n (search searchPath p) := by
  induction p using climb with
  | top p h => exact ⟨0,Nat.zero_le _,search_of_top h ▸ .top h⟩
  | up p h ih =>
    by_cases hs : p ∈ searchPath
    · exact ⟨0,Nat.zero_le _,search_of_mem hs ▸ .searched hs⟩
    · rw [search_of_not_mem h hs]
      cases hp : isPrivateName p.name with
      | true => exact ⟨0,Nat.zero_le _,.found h hs hp⟩
      | false =>
        obtain ⟨n,hn,hends⟩ := ih
        refine ⟨n + 1,?_,.up h hs hp hends⟩
        rw [names_eq (mt parent_eq_self_iff.mpr h),List.length_append,List.length_singleton]
        exact Nat.succ_le_succ hn

theorem search_of_ends (h : Ends searchPath p n b) : b = search searchPath p := by
  induction h with
  | top htop => exact (search_of_top htop).symm
  | searched hs => exact (search_of_mem hs).symm
  | found htop hs hp => rw [search_of_not_mem htop hs,hp,Bool.true_or]
  | up htop hs hp _ ih => rw [search_of_not_mem htop hs,hp,Bool.false_or,ih]

/-! ### The folders of a file -/

/-- A folder holds a place: the place itself, or what is below the folder. -/
def Holds (p q : Path) : Prop := p.root = q.root ∧ p.names <+: q.names

theorem holds_refl (p : Path) : p.Holds p := ⟨rfl,List.prefix_rfl⟩

theorem holds_of_top (h : p.parent = p) (hq : q.Holds p) : q = p := by
  obtain ⟨root,names⟩ := q
  obtain ⟨root',names'⟩ := p
  obtain ⟨hroot,hnames⟩ := hq
  cases parent_eq_self_iff.mp h
  cases List.prefix_nil.mp hnames
  cases hroot
  rfl

/-- What holds a place is the place itself or holds the folder above it. -/
theorem holds_iff (h : p.parent ≠ p) : q.Holds p ↔ q = p ∨ q.Holds p.parent := by
  have hnames := names_eq (mt parent_eq_self_iff.mpr h)
  unfold Holds
  rw [show p.names = p.parent.names ++ [p.name] from hnames,List.prefix_concat_iff,and_or_left,← hnames]
  refine or_congr ⟨?_,?_⟩ Iff.rfl
  · rintro ⟨hroot,hsame⟩
    cases q
    cases p
    cases hroot
    cases hsame
    rfl
  · rintro rfl
    exact ⟨rfl,rfl⟩

theorem not_holds_parent (h : p.parent ≠ p) : ¬p.Holds p.parent := by
  rintro ⟨-,hnames⟩
  have hpos := List.length_pos_iff.mpr (mt parent_eq_self_iff.mpr h)
  have hle := hnames.length_le
  simp only [parent,List.length_dropLast] at hle
  omega

theorem Holds.trans (hp : p.Holds q) (hq : q.Holds r) : p.Holds r :=
  ⟨hp.1.trans hq.1,hp.2.trans hq.2⟩

theorem isPrivateName_top (h : p.parent = p) : isPrivateName p.name = false := by
  rw [name,parent_eq_self_iff.mp h]
  decide

/-- The search finds a private folder with no folder of the search path from it downwards. -/
theorem search_iff : search searchPath p = true ↔
    ∃ q : Path, q.Holds p ∧ isPrivateName q.name = true ∧ ∀ r : Path, r.Holds p → q.Holds r → r ∉ searchPath := by
  induction p using climb with
  | top p h =>
    rw [search_of_top h]
    refine ⟨nofun,?_⟩
    rintro ⟨q,hq,hprivate,-⟩
    rw [holds_of_top h hq,isPrivateName_top h] at hprivate
    cases hprivate
  | up p h ih =>
    by_cases hs : p ∈ searchPath
    · rw [search_of_mem hs]
      refine ⟨nofun,?_⟩
      rintro ⟨q,hq,-,hclear⟩
      exact absurd hs (hclear p (holds_refl p) hq)
    · rw [search_of_not_mem h hs,Bool.or_eq_true,ih]
      constructor
      · rintro (hprivate | ⟨q,hq,hprivate,hclear⟩)
        · refine ⟨p,holds_refl p,hprivate,fun r hr hpr => ?_⟩
          rcases (holds_iff h).mp hr with rfl | hr
          · exact hs
          · exact absurd (hpr.trans hr) (not_holds_parent h)
        · refine ⟨q,(holds_iff h).mpr (.inr hq),hprivate,fun r hr hqr => ?_⟩
          rcases (holds_iff h).mp hr with rfl | hr
          · exact hs
          · exact hclear r hr hqr
      · rintro ⟨q,hq,hprivate,hclear⟩
        rcases (holds_iff h).mp hq with rfl | hq
        · exact .inl hprivate
        · exact .inr ⟨q,hq,hprivate,fun r hr => hclear r ((holds_iff h).mpr (.inr hr))⟩

theorem search_anti (h : searchPath ⊆ larger) (hp : search larger p = true) : search searchPath p = true := by
  obtain ⟨q,hq,hprivate,hclear⟩ := search_iff.mp hp
  exact search_iff.mpr ⟨q,hq,hprivate,fun r hr hqr hmem => hclear r hr hqr (h hmem)⟩

end Path

theorem Module.isPublic_iff {searchPath : List Path} {m : Module} : m.isPublic searchPath = true ↔
    (Path.ofText m.name).isInsidePrivate searchPath = false ∧ isPrivateName (Path.ofText m.name).stem = false := by
  simp [Module.isPublic]

/-- For every file and every search path the search for a private folder ends, with one answer: whether a
folder that holds the file has a private name, and neither it nor a folder between it and the file is on the
search path. A module that is public remains so when the search path grows. -/
theorem private_folder_search (searchPath : List Path) (file : Path) :
    (∃ n ≤ file.names.length, Path.Ends searchPath file.parent n (file.isInsidePrivate searchPath)) ∧
    (∀ n b, Path.Ends searchPath file.parent n b → b = file.isInsidePrivate searchPath) ∧
    (file.isInsidePrivate searchPath = true ↔ ∃ p : Path, p.Holds file.parent ∧
      ("_".toList <+: p.name ∧ ¬("__".toList <+: p.name ∧ "__".toList <:+ p.name)) ∧
      ∀ q : Path, q.Holds file.parent → p.Holds q → q ∉ searchPath) ∧
    ∀ larger, searchPath ⊆ larger →
      (file.isInsidePrivate larger = true → file.isInsidePrivate searchPath = true) ∧
      ∀ m : Module, m.isPublic searchPath = true → m.isPublic larger = true := by
  refine ⟨?_,fun n b h => Path.search_of_ends h,?_,fun larger h => ⟨Path.search_anti h,fun m hm => ?_⟩⟩
  · obtain ⟨n,hn,hends⟩ := Path.exists_ends searchPath file.parent
    have hle : file.parent.names.length ≤ file.names.length := by
      rw [Path.parent,List.length_dropLast]
      exact Nat.sub_le _ _
    exact ⟨n,Nat.le_trans hn hle,hends⟩
  · simp only [← isPrivateName_iff]
    exact Path.search_iff
  · obtain ⟨hinside,hstem⟩ := Module.isPublic_iff.mp hm
    refine Module.isPublic_iff.mpr ⟨?_,hstem⟩
    rw [Bool.eq_false_iff] at hinside ⊢
    exact fun hlarger => hinside (Path.search_anti h hlarger)

def emptyModule (name : Text) : Module where
  name
  source := []
  start := 1
  stop := 1
  docstring := none
  skipped := []
  children := []
  exports := none
  exportFault := none
  features := []

/-- With the root on the search path the module is private, with the private folder it is public. -/
theorem private_folder_search_foo : let file := Path.ofText "/_foo/bar/baz.py"
    (∃ n b, Path.Ends [Path.ofText "/"] file.parent n b ∧ b = true) ∧
    (¬∃ p : Path, p.Holds file.parent ∧
      ("_".toList <+: p.name ∧ ¬("__".toList <+: p.name ∧ "__".toList <:+ p.name)) ∧
      ∀ q : Path, q.Holds file.parent → p.Holds q → q ∉ [Path.ofText "/_foo/"]) ∧
    [Path.ofText "/_foo/"] ⊆ [Path.ofText "/", Path.ofText "/_foo/"] ∧
    (emptyModule "/_foo/bar/baz.py").isPublic [Path.ofText "/_foo/"] = true ∧
    (emptyModule "/_foo/bar/baz.py").isPublic [Path.ofText "/", Path.ofText "/_foo/"] = true := by
  intro file
  have hprivate : file.isInsidePrivate [Path.ofText "/"] = true := by decide +kernel
  have hopen : file.isInsidePrivate [Path.ofText "/_foo/"] = false := by decide +kernel
  have hsub : [Path.ofText "/_foo/"] ⊆ [Path.ofText "/", Path.ofText "/_foo/"] := List.subset_cons_self _ _
  have hpublic : (emptyModule "/_foo/bar/baz.py").isPublic [Path.ofText "/_foo/"] = true := by decide +kernel
  obtain ⟨n,-,hends⟩ := (private_folder_search [Path.ofText "/"] file).1
  obtain ⟨-,-,hiff,hgrow⟩ := private_folder_search [Path.ofText "/_foo/"] file
  refine ⟨⟨n,_,hends,hprivate⟩,fun h => ?_,hsub,hpublic,(hgrow _ hsub).2 _ hpublic⟩
  rw [hiff.mpr h] at hopen
  cases hopen

end DocLint
