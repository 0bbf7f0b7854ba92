import DocLint.Inspection
import DocLint.Resources.Builtin

/-!
Inspections of several files. A file that cannot be read, or whose text is no program, is one trouble
in the list of results, and the inspection goes on. All else that can go wrong with a file breaks the
inspection off, and the files behind it are not looked at.
-/

set_option autoImplicit false

namespace DocLint.Inspection

variable {t : FileTree} {o : CheckOptions} {codes : CodeSet} {location : Text} {locations : List Text}
  {fault : InspectionFault} {trouble : FileTrouble} {a b : Inspection}

/-! ### What becomes of a file -/

def Holds [Resources] (t : FileTree) (location source : Text) : Prop :=
  ∃ bytes, t.read location = .ok bytes ∧ sourceText bytes = .ok source

inductive Troubled [Resources] (t : FileTree) (location : Text) : FileTrouble → Prop where
  | path {e : PathFault} (hr : t.read location = .error e) : Troubled t location (.path location e)
  | rejected {source : Text} (hs : Holds t location source)
    (hm : Module.ofText location source = .error .rejected) : Troubled t location .rejected
  | unexpected {source : Text} {found : Token} {expected : TokenKind} (hs : Holds t location source)
    (hm : Module.ofText location source = .error (.read (.unexpected found expected))) :
    Troubled t location (.unexpected found expected)
  | unended {source : Text} {e : ScanFault} (hs : Holds t location source)
    (hm : Module.ofText location source = .error (.scan e)) (he : e ≠ .inconsistentDedent) :
    Troubled t location (.unended location)

inductive Breaking [Resources] (t : FileTree) (o : CheckOptions) (location : Text) : InspectionFault → Prop where
  | decoding {bytes : Bytes} {e : DecodeFault} (hr : t.read location = .ok bytes)
    (hd : sourceText bytes = .error e) : Breaking t o location (.decoding e)
  | scan {source : Text} (hs : Holds t location source)
    (hm : Module.ofText location source = .error (.scan .inconsistentDedent)) :
    Breaking t o location (.scan .inconsistentDedent)
  | outline {source : Text} {e : Outline.Fault} (hs : Holds t location source)
    (hm : Module.ofText location source = .error (.read e))
    (he : ∀ found expected, e ≠ .unexpected found expected) : Breaking t o location (.outline e)
  | check {source : Text} {m : Module} {e : CheckFault} (hs : Holds t location source)
    (hm : Module.ofText location source = .ok m) (he : (m.check o).fault = some e) :
    Breaking t o location (.check e)

inductive Checked [Resources] (t : FileTree) (o : CheckOptions) (location : Text) : List Violation → Prop where
  | mk {source : Text} {m : Module} (hs : Holds t location source)
    (hm : Module.ofText location source = .ok m) (he : (m.check o).fault = none) :
    Checked t o location (m.check o).violations

theorem ofFile_of_holds [Resources] {source : Text} (hs : Holds t location source) :
    ofFile t o codes location = ofSource o codes location source := by
  obtain ⟨bytes,hr,hd⟩ := hs
  simp only [ofFile,hr,hd]

theorem ofFile_of_troubled [Resources] (h : Troubled t location trouble) :
    (ofFile t o codes location).items = [.trouble trouble] ∧ (ofFile t o codes location).fault = none := by
  cases h with
  | path hr => simp [ofFile,hr,ofTrouble]
  | rejected hs hm =>
    unfold Module.ofText at hm
    simp [ofFile_of_holds hs,ofSource,hm,ofTrouble]
  | unexpected hs hm =>
    unfold Module.ofText at hm
    simp [ofFile_of_holds hs,ofSource,hm,ofTrouble]
  | @unended _ e hs hm he =>
    unfold Module.ofText at hm
    cases e with
    | inconsistentDedent => exact absurd rfl he
    | _ => simp [ofFile_of_holds hs,ofSource,hm]

theorem ofFile_of_checked [Resources] {violations : List Violation} (h : Checked t o location violations) :
    (ofFile t o codes location).items =
        (violations.filter fun v => codes.contains v.code).map .violation ∧
      (ofFile t o codes location).fault = none := by
  obtain ⟨hs,hm,he⟩ := h
  unfold Module.ofText at hm
  simp [ofFile_of_holds hs,ofSource,hm,he]

theorem ofFile_of_breaking [Resources] (h : Breaking t o location fault) :
    (ofFile t o codes location).fault = some fault := by
  cases h with
  | decoding hr hd => simp [ofFile,hr,hd]
  | scan hs hm =>
    unfold Module.ofText at hm
    simp [ofFile_of_holds hs,ofSource,hm]
  | @outline source e hs hm he =>
    unfold Module.ofText at hm
    cases e with
    | unexpected found expected => exact absurd rfl (he found expected)
    | _ => simp [ofFile_of_holds hs,ofSource,hm]
  | check hs hm he =>
    unfold Module.ofText at hm
    simp [ofFile_of_holds hs,ofSource,hm,he]

theorem troubled_or_checked_or_breaking [Resources] (t : FileTree) (o : CheckOptions) (location : Text) :
    (∃ trouble, Troubled t location trouble) ∨ (∃ violations, Checked t o location violations) ∨
      ∃ fault, Breaking t o location fault := by
  cases hr : t.read location with
  | error e => exact .inl ⟨_,.path hr⟩
  | ok bytes =>
    cases hd : sourceText bytes with
    | error e => exact .inr (.inr ⟨_,.decoding hr hd⟩)
    | ok source =>
      have hs : Holds t location source := ⟨bytes,hr,hd⟩
      cases hm : Module.ofText location source with
      | ok m =>
        cases he : (m.check o).fault with
        | none => exact .inr (.inl ⟨_,.mk hs hm he⟩)
        | some e => exact .inr (.inr ⟨_,.check hs hm he⟩)
      | error e =>
        cases e with
        | rejected => exact .inl ⟨_,.rejected hs hm⟩
        | scan e =>
          by_cases he : e = .inconsistentDedent
          · exact .inr (.inr ⟨_,.scan hs (he ▸ hm)⟩)
          · exact .inl ⟨_,.unended hs hm he⟩
        | read e =>
          cases e with
          | unexpected found expected => exact .inl ⟨_,.unexpected hs hm⟩
          | _ => exact .inr (.inr ⟨_,.outline hs hm (by simp)⟩)

theorem fault_ofFile_iff [Resources] :
    (ofFile t o codes location).fault = some fault ↔ Breaking t o location fault := by
  refine ⟨fun h => ?_,ofFile_of_breaking⟩
  rcases troubled_or_checked_or_breaking t o location with ⟨_,ht⟩ | ⟨_,hc⟩ | ⟨_,hb⟩
  · rw [(ofFile_of_troubled ht).2] at h
    cases h
  · rw [(ofFile_of_checked hc).2] at h
    cases h
  · rw [ofFile_of_breaking hb] at h
    cases h
    exact hb

theorem fault_ofFile_eq_none_iff [Resources] :
    (ofFile t o codes location).fault = none ↔ ∀ fault, ¬ Breaking t o location fault := by
  constructor
  · intro h fault hb
    rw [ofFile_of_breaking hb] at h
    cases h
  · intro h
    cases hf : (ofFile t o codes location).fault with
    | none => rfl
    | some fault => exact absurd (fault_ofFile_iff.1 hf) (h fault)

/-! ### One file after the other -/

theorem append_of_fault (h : a.fault = some fault) : a ++ b = a := by
  change append a b = a
  simp only [append,h]

theorem append_of_none (h : a.fault = none) : a ++ b = ⟨a.items ++ b.items,a.log ++ b.log,b.fault⟩ := by
  change append a b = _
  simp only [append,h]

@[simp] theorem ofFiles_single [Resources] : ofFiles t o codes [location] = ofFile t o codes location := by
  change ofFile t o codes location ++ ({} : Inspection) = _
  cases h : (ofFile t o codes location).fault with
  | some fault => exact append_of_fault h
  | none => simp [append_of_none h,← h]

/-- As long as no file breaks the inspection off, each one adds what it gives by itself. -/
theorem ofFiles_append [Resources] (h : ∀ l ∈ locations, (ofFile t o codes l).fault = none) (more : List Text) :
    (ofFiles t o codes (locations ++ more)).items =
        (locations.flatMap fun l => (ofFile t o codes l).items) ++ (ofFiles t o codes more).items ∧
      (ofFiles t o codes (locations ++ more)).fault = (ofFiles t o codes more).fault := by
  induction locations with
  | nil => simp
  | cons l locations ih =>
    obtain ⟨hi,hf⟩ := ih fun x hx => h x (List.mem_cons_of_mem l hx)
    have hl := h l (List.mem_cons_self ..)
    change (ofFile t o codes l ++ ofFiles t o codes (locations ++ more)).items = _ ∧
      (ofFile t o codes l ++ ofFiles t o codes (locations ++ more)).fault = _
    rw [append_of_none hl]
    exact ⟨by simp [hi],hf⟩

theorem not_breaking_of_fault [Resources] (h : (ofFiles t o codes locations).fault = none) :
    ∀ l ∈ locations, ∀ fault, ¬ Breaking t o l fault := by
  induction locations with
  | nil => simp
  | cons l locations ih =>
    change (ofFile t o codes l ++ ofFiles t o codes locations).fault = none at h
    cases hl : (ofFile t o codes l).fault with
    | some fault =>
      rw [append_of_fault hl,hl] at h
      cases h
    | none =>
      rw [append_of_none hl] at h
      intro x hx
      rcases List.mem_cons.1 hx with rfl | hx
      · exact fault_ofFile_eq_none_iff.1 hl
      · exact ih h x hx

/-- A file that breaks the inspection off is the last one that is looked at. -/
theorem ofFiles_of_breaking [Resources] {before after : List Text}
    (h : ∀ l ∈ before, (ofFile t o codes l).fault = none) (hb : Breaking t o location fault) :
    (ofFiles t o codes (before ++ location :: after)).items =
        ((before ++ [location]).flatMap fun l => (ofFile t o codes l).items) ∧
      (ofFiles t o codes (before ++ location :: after)).fault = some fault := by
  have hlast : ofFiles t o codes (location :: after) = ofFile t o codes location :=
    append_of_fault (ofFile_of_breaking hb)
  obtain ⟨hi,hf⟩ := ofFiles_append h (location :: after)
  rw [hi,hf,hlast]
  exact ⟨by simp,ofFile_of_breaking hb⟩

/-- The results for several files are those of the files one by one, in their order and to the end,
exactly if no file breaks the inspection off. If one does, its results are the last ones. Files that
cannot be read or parsed are one trouble each and break nothing off. -/
theorem ofFiles_concat_iff [Resources] (t : FileTree) (o : CheckOptions) (codes : CodeSet) (locations : List Text) :
    ((ofFiles t o codes locations).fault = none ∧ (ofFiles t o codes locations).items =
          (locations.flatMap fun l => (ofFiles t o codes [l]).items) ↔
        ∀ l ∈ locations, ∀ fault, ¬ Breaking t o l fault) ∧
      (∀ before l after fault, locations = before ++ l :: after →
        (∀ x ∈ before, ∀ fault, ¬ Breaking t o x fault) → Breaking t o l fault →
        (ofFiles t o codes locations).fault = some fault ∧ (ofFiles t o codes locations).items =
          ((before ++ [l]).flatMap fun l => (ofFiles t o codes [l]).items)) ∧
      ∀ l trouble, Troubled t l trouble → (ofFiles t o codes [l]).items = [.trouble trouble] ∧
        ∀ fault, ¬ Breaking t o l fault := by
  have hunbroken {locations : List Text} (h : ∀ l ∈ locations, ∀ fault, ¬ Breaking t o l fault) :
      ∀ l ∈ locations, (ofFile t o codes l).fault = none :=
    fun l hl => fault_ofFile_eq_none_iff.2 (h l hl)
  simp only [ofFiles_single]
  refine ⟨⟨fun ⟨hf,_⟩ => ?_,fun h => ?_⟩,?_,?_⟩
  · exact not_breaking_of_fault hf
  · have hall := ofFiles_append (hunbroken h) []
    simp only [List.append_nil] at hall
    exact ⟨hall.2,by rw [hall.1]; simp [ofFiles]⟩
  · rintro before l after fault rfl h hb
    exact (ofFiles_of_breaking (hunbroken h) hb).symm
  · intro l trouble ht
    obtain ⟨hi,hf⟩ := @ofFile_of_troubled t o codes l trouble _ ht
    exact ⟨hi,fault_ofFile_eq_none_iff.1 hf⟩

def undecodableFirst : FileTree :=
  { root := .file "bad.py" [10, 10, 255] (.file "good.py" [] .empty), working := [] }

open Resources.Builtin

theorem undecodableFirst_broken :
    (ofFiles undecodableFirst {} Convention.pep257.codes ["bad.py", "good.py"]).items = [] ∧
    (ofFiles undecodableFirst {} Convention.pep257.codes ["bad.py", "good.py"]).fault =
      some (.decoding .bytes) ∧
    (ofFiles undecodableFirst {} Convention.pep257.codes ["good.py"]).items.length = 1 :=
  ⟨rfl,rfl,by decide +kernel⟩

end DocLint.Inspection
