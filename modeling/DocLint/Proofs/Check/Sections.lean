import DocLint.Check.Sections
import DocLint.Proofs.Check.Docstring

/-!
Checks on sections come to an end: every line that they ask for is there, every header has a name,
and the lines about arguments begin with an entry.
-/

set_option autoImplicit false

namespace DocLint

/-- Whether the parameters of a subject can be told, if it is a function. -/
def Subject.hasSignature [Resources] (s : Subject) : Bool :=
  s.definition?.all fun d => d.kind.isClass || (Grammar.parameterNamesOf s.source.stripLeft).isOk

namespace Section

variable {names lines : List Text} {line : Text}

theorem head_of_takeWhile {α : Type} {p : α → Bool} {l as : List α} {a : α}
    (h : l.takeWhile p = a :: as) : p a = true ∧ ∃ bs, l = a :: bs := by
  cases l with
  | nil => simp at h
  | cons b bs =>
    rw [List.takeWhile_cons] at h
    split at h
    · rename_i hp
      injection h with hb
      subst hb
      exact ⟨hp,bs,rfl⟩
    · cases h

theorem leadingWords_of_isSuspect (h : isSuspect names line = true) :
    ∃ words, leadingWords? line = some words := by
  simp only [isSuspect,Bool.and_eq_true] at h
  cases hl : leadingWords line.lower with
  | nil => simp [hl] at h
  | cons d ds =>
    obtain ⟨hwords,es,he⟩ := head_of_takeWhile hl
    obtain ⟨ds',hstrip⟩ := Text.stripLeft_of_strip he
    have hne : d ≠ ' ' := by
      rintro rfl
      cases Text.isSpace_of_strip he
    have hd : Text.isWord d = true := by simpa [hne] using hwords
    obtain ⟨c,cs,hc,hword⟩ := Text.stripLeft_lowerAfter hstrip hd
    refine ⟨_,if_neg ?_⟩
    simp [leadingWords,Text.strip_of_stripLeft hc,hword]

theorem exists_mapM {α β : Type} {f : α → Option β} {l : List α} (h : ∀ a ∈ l, ∃ b, f a = some b) :
    ∃ bs, l.mapM f = some bs := by
  induction l with
  | nil => exact ⟨[],rfl⟩
  | cons a l ih =>
    obtain ⟨b,hb⟩ := h a (by simp)
    obtain ⟨bs,hbs⟩ := ih fun a' ha' => h a' (by simp [ha'])
    exact ⟨b :: bs,by simp [hb,hbs]⟩

theorem exists_sectionsOf (names lines : List Text) :
    ∃ found, sectionsOf? names lines = some found := by
  have hnamed : ∃ named, (suspects names lines).mapM named? = some named := by
    refine exists_mapM ?_
    rintro ⟨⟨previous,line⟩,i⟩ hmem
    obtain ⟨words,hwords⟩ := leadingWords_of_isSuspect (List.mem_filter.mp hmem).2
    exact ⟨(i, words, previous, line),by rw [named?,hwords]; rfl⟩
  obtain ⟨named,hnamed⟩ := hnamed
  unfold sectionsOf? headers?
  rw [hnamed]
  exact ⟨_,rfl⟩

end Section

namespace Check.Sections

open Outcome

variable {lines : List Text}

theorem exists_lineAt {i : Nat} (h : i < lines.length) : ∃ line, lineAt lines i = .ok line := by
  simp only [lineAt,List.getElem?_eq_getElem h]
  exact ⟨_,rfl⟩

theorem leadingBlanks_lt (h : lines.all Text.isBlank = false) :
    Layout.leadingBlanks lines < lines.length := by
  unfold Layout.leadingBlanks
  induction lines with
  | nil => simp at h
  | cons l ls ih =>
    cases hl : Text.isBlank l with
    | true =>
      have := ih (by simpa [hl] using h)
      simp only [List.takeWhile_cons,hl,if_true,List.length_cons]
      omega
    | false => simp [hl]

theorem contentBehindUnderline_ok (name : Text) (following : List Text) (index : Nat) :
    ∃ findings, contentBehindUnderline name following index = .ok findings := by
  unfold contentBehindUnderline
  split
  case isTrue h =>
    obtain ⟨line,hline⟩ := exists_lineAt h
    rw [hline]
    change ∃ findings, (if Text.isBlank line = true then _ else _) = Except.ok findings
    split <;> exact ⟨_,rfl⟩
  case isFalse => exact ⟨_,rfl⟩

theorem underline_complete (name indent : Text) (following : List Text) :
    (underline name indent following).IsComplete := by
  unfold underline
  simp only
  split
  case isTrue => exact isComplete_ofList _
  case isFalse h =>
    obtain ⟨line,hline⟩ := exists_lineAt (leadingBlanks_lt (Bool.eq_false_iff.mpr h))
    simp only [hline]
    split
    · exact isComplete_ofList _
    · exact (isComplete_ofList _).append
        (isComplete_ofExcept (contentBehindUnderline_ok name following _))

theorem commonSection_complete (names : List Text) (indent : Text) (s : Section) :
    (commonSection names indent s).IsComplete :=
  (isComplete_ofList _).append (underline_complete _ _ _)

theorem foldlM_addLine_ok (entry : Text) (above : List Text) :
    ∃ entries, lines.foldlM addLine (entry :: above) = .ok entries := by
  induction lines generalizing entry above with
  | nil => exact ⟨_,rfl⟩
  | cons l ls ih =>
    rw [List.foldlM_cons]
    unfold addLine
    split
    · exact ih _ _
    · exact ih _ _

theorem entries_ok (h : lines = [] ∨ ∃ c l ls, lines = (c :: l) :: ls ∧ Text.isSpace c = false) :
    ∃ found, entries lines = .ok found := by
  have hfold : ∃ found, lines.foldlM addLine [] = .ok found := by
    obtain rfl | ⟨c,l,ls,rfl,hc⟩ := h
    · exact ⟨_,rfl⟩
    · rw [List.foldlM_cons,show addLine [] (c :: l) = .ok [c :: l] by simp [addLine,hc]]
      exact foldlM_addLine_ok _ _
  obtain ⟨found,hfound⟩ := hfold
  exact ⟨_,by rw [entries,hfound]; rfl⟩

theorem argumentLines_open (following : List Text) : argumentLines following = [] ∨
    ∃ c l ls, argumentLines following = (c :: l) :: ls ∧ Text.isSpace c = false := by
  unfold argumentLines
  simp only
  generalize Text.dedent _ = t
  cases ht : t.strip with
  | nil => exact Or.inl rfl
  | cons c cs =>
    obtain ⟨l,ls,hl⟩ := Text.splitLines_cons c cs
    exact Or.inr ⟨c,l,ls,hl,Text.isSpace_of_strip ht⟩

theorem describedArguments_ok (s : Section) : ∃ names, describedArguments s = .ok names := by
  obtain ⟨found,hfound⟩ := entries_ok (argumentLines_open s.following)
  exact ⟨_,by rw [describedArguments,hfound]; rfl⟩

variable {subject : Subject}

theorem missingParameters_ok [Resources] (h : subject.hasSignature = true) (documented : List Text) :
    ∃ findings, missingParameters documented subject = .ok findings := by
  cases subject with
  | module m => exact ⟨_,rfl⟩
  | definition m ancestors d =>
    simp only [Subject.hasSignature,Subject.definition?,Option.all_some,Bool.or_eq_true] at h
    simp only [missingParameters]
    split
    case isTrue => exact ⟨_,rfl⟩
    case isFalse hclass =>
      have hok := h.resolve_left hclass
      cases hn : Grammar.parameterNamesOf (Subject.definition m ancestors d).source.stripLeft with
      | error fault => simp [hn,Except.isOk,Except.toBool] at hok
      | ok names => exact ⟨_,rfl⟩

theorem numpySection_complete [Resources] (h : subject.hasSignature = true) (indent : Text) (s : Section) :
    (numpySection subject indent s).IsComplete := by
  refine (commonSection_complete _ _ _).append ((isComplete_ofList _).append ?_)
  split
  · exact isComplete_ofExcept (missingParameters_ok h _)
  · exact isComplete_empty

theorem googleSection_complete [Resources] (h : subject.hasSignature = true) (indent : Text) (s : Section) :
    (googleSection subject indent s).IsComplete := by
  refine (commonSection_complete _ _ _).append ((isComplete_ofList _).append ?_)
  split
  · obtain ⟨names,hnames⟩ := describedArguments_ok s
    rw [hnames]
    exact isComplete_ofExcept (missingParameters_ok h names)
  · exact isComplete_empty

theorem ofStyle_complete {check : Section → Outcome} {found : Option (List Section)}
    (hc : ∀ s, (check s).IsComplete) (hf : ∃ sections, found = some sections) :
    (ofStyle check found).IsComplete := by
  obtain ⟨sections,rfl⟩ := hf
  refine isComplete_concat fun o ho => ?_
  obtain ⟨s,-,rfl⟩ := List.mem_map.mp ho
  exact hc s

/-- The checks on sections come to an end wherever the parameters of functions can be told. -/
theorem all_complete [Resources] (h : subject.hasSignature = true) (d : Docstring) :
    (all subject d).IsComplete := by
  unfold all
  simp only
  split
  case isTrue => exact isComplete_empty
  case isFalse =>
    split
    case h_1 =>
      exact ofStyle_complete (googleSection_complete h _) (Section.exists_sectionsOf _ _)
    case h_2 =>
      exact ofStyle_complete (numpySection_complete h _) (Section.exists_sectionsOf _ _)

end Check.Sections

end DocLint
