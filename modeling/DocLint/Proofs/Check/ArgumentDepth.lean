import DocLint.Proofs.Check.Partition
import DocLint.Proofs.Text.Margin
import DocLint.Resources.Builtin

/-!
How deep the arguments of a section are indented does not matter: moved to the right by any number of
blanks, its lines describe the same arguments.
-/

set_option autoImplicit false

namespace DocLint

def Text.shift (k : Nat) (l : Text) : Text := if l.isEmpty then l else List.replicate k ' ' ++ l

def Section.shift (k : Nat) (s : Section) : Section := { s with following := s.following.map (Text.shift k) }

def Section.OfLines (s : Section) : Prop := ∀ l ∈ s.following, '\n' ∉ l

theorem Section.ofLines_of_mem {names : List Text} {t : Text} {found : List Section} {s : Section}
    (h : sectionsOf? names (Text.splitOn '\n' t) = some found) (hs : s ∈ found) : s.OfLines := by
  rw [sectionsOf_eq] at h
  obtain rfl := Option.some.inj h
  obtain ⟨p,-,rfl⟩ := List.mem_map.mp hs
  exact fun l hl => Text.not_mem_of_mem_splitOn (List.mem_of_mem_take (List.mem_of_mem_drop hl))

namespace Text

variable {k : Nat} {l : Text}

theorem shift_nil (k : Nat) : shift k [] = [] := rfl

theorem shift_of_ne_nil (h : l ≠ []) : shift k l = List.replicate k ' ' ++ l := by simp [shift,h]

theorem shift_drop (k : Nat) (l : Text) : (shift k l).drop k = l := by
  by_cases h : l = []
  · simp [h,shift_nil]
  · simp [shift_of_ne_nil h]

theorem isMargin_blanks (k : Nat) : isMargin (List.replicate k ' ') = true :=
  List.all_eq_true.mpr fun c hc => by rw [List.eq_of_mem_replicate hc]; rfl

theorem isSpace_blanks (k : Nat) : ∀ c ∈ List.replicate k ' ', isSpace c = true := fun c hc => by
  rw [List.eq_of_mem_replicate hc]; rfl

theorem isBlank_shift (k : Nat) (l : Text) : isBlank (shift k l) = isBlank l := by
  by_cases h : l = []
  · rw [h,shift_nil]
  · rw [shift_of_ne_nil h,Bool.eq_iff_iff,isBlank_iff,isBlank_iff]
    simp only [List.mem_append,or_imp,forall_and]
    exact ⟨And.right,fun hl => ⟨isSpace_blanks k,hl⟩⟩

theorem leadingSpace_shift (h : isBlank l = false) :
    (shift k l).leadingSpace = List.replicate k ' ' ++ l.leadingSpace := by
  have hne : l ≠ [] := by
    rintro rfl
    cases h
  rw [shift_of_ne_nil hne,leadingSpace,List.takeWhile_append_of_pos (isSpace_blanks k),leadingSpace]

theorem feedless_shift (h : '\n' ∉ l) : '\n' ∉ shift k l := by
  by_cases hl : l = []
  · simp [hl,shift_nil]
  · simp [shift_of_ne_nil hl,h]

theorem dedentLines_shift (k : Nat) (ls : List Text) : dedentLines (ls.map (shift k)) = dedentLines ls := by
  have hmoved := @dedentLines_moved (List.replicate k ' ') (ls.map (shift k)) (isMargin_blanks k) (by
    intro l hl
    obtain ⟨l,-,rfl⟩ := List.mem_map.mp hl
    by_cases h : l = []
    · exact Or.inl (by rw [h,shift_nil]; rfl)
    · exact Or.inr ⟨l,shift_of_ne_nil h⟩)
  rw [← hmoved,List.length_replicate,List.map_map]
  exact congrArg _ (by simp [Function.comp_def,shift_drop])

end Text

namespace Check.Sections

def depthOf : List Text → Text
  | [] => []
  | l :: _ => if Text.isBlank l then [] else l.leadingSpace

def isKept (indent l : Text) : Bool := indent.isPrefixOf l || l.isEmpty

/-- The lines that are as deep as the first one, and the empty ones. -/
def keptLines (following : List Text) : List Text := following.filter (isKept (depthOf following))

theorem argumentLines_eq (following : List Text) : argumentLines following =
    (Text.dedent (Text.join "\n" (keptLines following))).strip.splitLines := by
  cases following <;> rfl

theorem isPrefixOf_append (p a b : Text) : (p ++ a).isPrefixOf (p ++ b) = a.isPrefixOf b := by
  induction p with
  | nil => rfl
  | cons c p ih => simpa using ih

-- A blank first line keeps every line, also when it has been moved. Otherwise the indentation that is
-- asked for moves along with the lines.
theorem isKept_shift (k : Nat) (following : List Text) (l : Text) :
    isKept (depthOf (following.map (Text.shift k))) (Text.shift k l) = isKept (depthOf following) l := by
  unfold isKept
  by_cases hl : l = []
  · rw [hl,Text.shift_nil]
    simp
  · cases following with
    | nil => simp [depthOf]
    | cons first rest =>
      simp only [List.map_cons,depthOf,Text.isBlank_shift]
      cases hfirst : Text.isBlank first with
      | true => simp
      | false =>
        simp only [Bool.false_eq_true,if_false,Text.leadingSpace_shift hfirst]
        have hmoved : List.replicate k ' ' ++ l ≠ [] := by simp [hl]
        rw [Text.shift_of_ne_nil hl,isPrefixOf_append,List.isEmpty_eq_false_iff.mpr hl,
          List.isEmpty_eq_false_iff.mpr hmoved]

theorem keptLines_shift (k : Nat) (following : List Text) :
    keptLines (following.map (Text.shift k)) = (keptLines following).map (Text.shift k) := by
  rw [keptLines,List.filter_map]
  exact congrArg _ (List.filter_congr fun l _ => isKept_shift k following l)

theorem argumentLines_shift {following : List Text} (k : Nat) (h : ∀ l ∈ following, '\n' ∉ l) :
    argumentLines (following.map (Text.shift k)) = argumentLines following := by
  have hkept : ∀ l ∈ keptLines following, '\n' ∉ l := fun l hl => h l (List.mem_filter.mp hl).1
  have hmoved : ∀ l ∈ (keptLines following).map (Text.shift k), '\n' ∉ l := by
    intro l hl
    obtain ⟨l',hl',rfl⟩ := List.mem_map.mp hl
    exact Text.feedless_shift (hkept l' hl')
  have hsame : Text.dedent (Text.join "\n" ((keptLines following).map (Text.shift k))) =
      Text.dedent (Text.join "\n" (keptLines following)) := by
    rw [String.toList_ofList,Text.dedent_join hmoved,Text.dedent_join hkept,Text.dedentLines_shift]
  rw [argumentLines_eq,argumentLines_eq,keptLines_shift,hsame]

/-- Moved to the right by any number of blanks, the lines of a section describe the same arguments, and
the same ones are missing. -/
theorem described_shift [Resources] (k : Nat) (s : Section) (h : s.OfLines) :
    ∃ names, describedArguments s = .ok names ∧ describedArguments (s.shift k) = .ok names ∧
      ∀ subject, (do missingParameters (← describedArguments (s.shift k)) subject) =
        (do missingParameters (← describedArguments s) subject) := by
  have hsame : describedArguments (s.shift k) = describedArguments s := by
    rw [describedArguments,Section.shift,argumentLines_shift k h,describedArguments]
  obtain ⟨names,hnames⟩ := describedArguments_ok s
  exact ⟨names,hnames,hsame.trans hnames,fun subject => by rw [hsame]⟩

/-- A text with a blank line below its header, and with blanks, a tab and nothing in front of the lines
about arguments. -/
def unevenText : Text := "Do.\n\nArgs:\n\n  x: One.\n \t\n\ty: Two.\nz: Three.\n"

def unevenSection : Section :=
  { name := "Args", previous := [], line := "Args:", index := 2, isLast := true
    following := ["", "  x: One.", " \t", "\ty: Two.", "z: Three."] }

open Resources.Builtin

theorem described_shift_uneven :
    Section.sectionsOf? Section.googleNames (Text.splitOn '\n' unevenText) = some [unevenSection] ∧
      unevenSection.OfLines ∧
      describedArguments (unevenSection.shift 3) = .ok ["x".toList, "z".toList] := by
  have hfound : Section.sectionsOf? Section.googleNames (Text.splitOn '\n' unevenText) =
      some [unevenSection] := by decide +kernel
  have hlines := Section.ofLines_of_mem hfound (List.mem_singleton_self unevenSection)
  have hnames : describedArguments unevenSection = .ok ["x".toList, "z".toList] := by rfl
  obtain ⟨names,hbefore,hafter,-⟩ := described_shift 3 unevenSection hlines
  rw [hnames] at hbefore
  exact ⟨hfound,hlines,hafter.trans hbefore.symm⟩

end Check.Sections

end DocLint
