import DocLint.Check
import DocLint.Proofs.Check.Partition
import DocLint.Proofs.Grammar.LetterCase

/-!
Docstrings that differ only in the case of the letter before their quotes. They stand for the same text, and
all checks that look at nothing but the docstring find the same in both, backslashes apart.
-/

set_option autoImplicit false

namespace DocLint

/-- The second docstring is the first with its one mark in the other case. -/
inductive Docstring.Respelt : Docstring → Docstring → Prop
  | mk {c q : Char} {rest : Text} {start stop : Nat} (mark : c ∈ plainLetters) (quote : Lexeme.isQuote q = true) :
      Respelt ⟨c :: q :: rest, start, stop⟩ ⟨otherCase c :: q :: rest, start, stop⟩

section Letter

variable {c q : Char} {rest : Text}

theorem Literal.ofText?_otherCase (hc : c ∈ plainLetters) (hq : Lexeme.isQuote q = true) :
    Literal.ofText? (otherCase c :: q :: rest) = Literal.ofText? (c :: q :: rest) := by
  have hmark {p : Char → Bool} (hr : p 'r' = p 'R') (hu : p 'u' = p 'U') :
      [otherCase c].any p = [c].any p := by
    simp only [List.any_cons,List.any_nil,otherCase_congr hr hu c]
  unfold Literal.ofText?
  rw [literalMark?_letter hc hq,literalMark?_letter (otherCase_mem hc) hq]
  dsimp only
  rw [hmark (by decide) (by decide),hmark (by decide) (by decide),hmark (by decide) (by decide)]

theorem Grammar.isString_letter (hc : c ∈ plainLetters) (hq : Lexeme.isQuote q = true) :
    Grammar.isString (c :: q :: rest) =
      (Grammar.quoted? (q :: Text.unifyNewlines rest)).any fun p => p.2.isEmpty := by
  unfold Grammar.isString Grammar.string?
  rw [Grammar.unifyNewlines_letter hc hq,literalMark?_letter hc hq]
  simp only [Option.bind_eq_bind,Option.bind_some]
  cases Grammar.quoted? (q :: Text.unifyNewlines rest) <;> rfl

theorem lowerIn_otherCase (hc : c ∈ plainLetters) (before : Text) (x : Char) (after : Text) :
    Text.lowerIn (before ++ [otherCase c]) x after = Text.lowerIn (before ++ [c]) x after := by
  have hshown {c : Char} (hc : c ∈ plainLetters) : (before ++ [c]).dropWhile Text.isCaseIgnorable =
      before.dropWhile Text.isCaseIgnorable ++ [c] := by
    have hkept := of_mem_plainLetters (p := (!Text.isCaseIgnorable ·)) (by decide) hc
    rw [List.dropWhile_append]
    split
    · rename_i hempty
      rw [List.isEmpty_iff.mp hempty,List.dropWhile_cons_of_neg (by simpa using hkept)]
      rfl
    · rfl
  have hcased {c : Char} (hc : c ∈ plainLetters) : Text.isCased c = true :=
    of_mem_plainLetters (by decide) hc
  unfold Text.lowerIn
  simp only [hshown hc,hshown (otherCase_mem hc)]
  cases before.dropWhile Text.isCaseIgnorable with
  | nil => simp only [List.nil_append,hcased hc,hcased (otherCase_mem hc)]
  | cons d ds => rfl

theorem lowerAfter_otherCase (hc : c ∈ plainLetters) (before t : Text) :
    Text.lowerAfter (before ++ [otherCase c]) t = Text.lowerAfter (before ++ [c]) t := by
  induction t generalizing before with
  | nil => rfl
  | cons x t ih =>
    rw [Text.lowerAfter,Text.lowerAfter,lowerIn_otherCase hc]
    exact congrArg _ (ih (x :: before))

theorem lower_otherCase (hc : c ∈ plainLetters) (t : Text) :
    Text.lower (otherCase c :: t) = Text.lower (c :: t) := by
  have hone {c : Char} (hc : c ∈ plainLetters) : Text.lowerIn [] c t = [Text.lowerAscii c] := by
    have hascii : Text.isAscii c = true := of_mem_plainLetters (by decide) hc
    have hsigma : c ≠ Text.capitalSigma := by
      rintro rfl
      exact absurd hascii (by decide)
    rw [Text.lowerIn,if_neg hsigma,Text.lowerChar,if_pos hascii]
  have hsame : Text.lowerAscii (otherCase c) = Text.lowerAscii c :=
    otherCase_congr (by decide) (by decide) c
  rw [Text.lower,Text.lower,Text.lowerAfter,Text.lowerAfter,hone hc,hone (otherCase_mem hc),hsame]
  exact congrArg _ (lowerAfter_otherCase hc [] t)

end Letter

namespace Docstring.Respelt

variable {d d' : Docstring}

theorem value_eq [Resources] (h : d.Respelt d') : d'.value = d.value := by
  obtain ⟨hc,hq⟩ := h
  unfold Docstring.value
  dsimp only
  rw [Literal.ofText?_otherCase hc hq,Grammar.isString_letter hc hq,Grammar.isString_letter (otherCase_mem hc) hq]
  unfold Literal.ofText?
  rw [literalMark?_letter hc hq]
  have hplain := of_mem_plainLetters (p := fun c => !(c == 'f' || c == 'F')) (by decide) hc
  simp only [List.any_cons,List.any_nil,Bool.or_false]
  simp only [Bool.not_eq_true'] at hplain
  rw [hplain]
  rfl

theorem content_eq [Resources] (h : d.Respelt d') : d'.content = d.content := by
  unfold Docstring.content
  rw [h.value_eq]

theorem judged_eq [Resources] (h : d.Respelt d') (f : Text → List Finding) : d'.judged f = d.judged f := by
  unfold Docstring.judged
  rw [h.content_eq]

theorem unmarked_eq (h : d.Respelt d') : Check.Wording.unmarked d'.text = Check.Wording.unmarked d.text := by
  obtain ⟨hc,hq⟩ := h
  simp only [plainLetters,List.mem_cons,List.not_mem_nil,or_false] at hc
  obtain rfl | rfl | rfl | rfl := hc <;> rfl

theorem quotes_eq [Resources] (h : d.Respelt d') : Check.Wording.quotes d' = Check.Wording.quotes d := by
  unfold Check.Wording.quotes
  rw [h.content_eq,h.unmarked_eq]

end Docstring.Respelt

/-! ### Lines -/

section Lines

variable {c q : Char} {rest : Text}

theorem ne_newline_letter (hc : c ∈ plainLetters) : c ≠ '\n' := by
  rintro rfl
  exact absurd hc (by decide)

theorem ne_newline_quote (hq : Lexeme.isQuote q = true) : q ≠ '\n' := by
  rintro rfl
  exact absurd hq (by decide)

theorem exists_splitOn_letter (hq : Lexeme.isQuote q = true) (rest : Text) :
    ∃ l ls, ∀ c ∈ plainLetters, Text.splitOn '\n' (c :: q :: rest) = (c :: q :: l) :: ls := by
  have hfeed : '\n' ∉ [q] := by simpa using (ne_newline_quote hq).symm
  obtain ⟨l,ls,hl⟩ := Section.splitOn_append (b := rest) hfeed
  refine ⟨l,ls,fun c hc => ?_⟩
  rw [Text.splitOn,show Text.splitOn '\n' (q :: rest) = (q :: l) :: ls from hl]
  simp [ne_newline_letter hc]

theorem afterLast_cons (sep c : Char) (t : Text) : Text.afterLast sep (c :: t) =
    if sep ∈ t then Text.afterLast sep t else if c = sep then t else c :: t := by
  unfold Text.afterLast
  rw [List.reverse_cons]
  by_cases hmem : sep ∈ t
  · rw [if_pos hmem,List.takeWhile_append,if_neg]
    intro hall
    have hsame : t.reverse.takeWhile (· ≠ sep) = t.reverse :=
      (List.takeWhile_prefix _).eq_of_length hall
    have hnone := List.all_eq_true.mp (hsame ▸ List.all_takeWhile) sep (List.mem_reverse.mpr hmem)
    simp at hnone
  · have hall : ∀ d ∈ t.reverse, decide (d ≠ sep) = true := by
      intro d hd
      have hne : d ≠ sep := by
        rintro rfl
        exact hmem (List.mem_reverse.mp hd)
      simpa using hne
    rw [if_neg hmem,List.takeWhile_append_of_pos hall]
    by_cases hc : c = sep <;> simp [hc]

theorem strip_letter (hc : c ∈ plainLetters) (hq : Lexeme.isQuote q = true) (l : Text) :
    Text.strip (c :: q :: l) = c :: q :: Text.stripRight l := by
  have hcs := of_mem_plainLetters (p := (!Text.isSpace ·)) (by decide) hc
  have hqs : Text.isSpace q = false := by
    have hq' : q = '"' ∨ q = '\'' := by simpa [Lexeme.isQuote] using hq
    obtain rfl | rfl := hq' <;> decide
  exact Section.strip_plain (a := [c]) (by simpa using hcs) hqs

/-- The last line is not that of the mark, or it is no closing line. -/
theorem closing_letter (hc : c ∈ plainLetters) (hq : Lexeme.isQuote q = true) {closings : List Text}
    (hclosings : closings.all (·.head?.all Lexeme.isQuote) = true) :
    closings.contains (Text.strip (Text.afterLast '\n' (c :: q :: rest))) =
      (decide ('\n' ∈ rest) && closings.contains (Text.strip (Text.afterLast '\n' rest))) := by
  rw [afterLast_cons,afterLast_cons,if_neg (ne_newline_letter hc),if_neg (ne_newline_quote hq)]
  by_cases hmem : '\n' ∈ rest
  · simp [hmem]
  · have hmem' : '\n' ∉ q :: rest := by simp [hmem,(ne_newline_quote hq).symm]
    rw [if_neg hmem',strip_letter hc hq]
    simp only [hmem,decide_false,Bool.false_and,Bool.eq_false_iff,Ne,List.contains_iff_mem]
    intro hin
    have hquote := List.all_eq_true.mp hclosings _ hin
    have hletter := of_mem_plainLetters (p := (!Lexeme.isQuote ·)) (by decide) hc
    simp [show Lexeme.isQuote c = false by simpa using hletter] at hquote

theorem isSuffixOf_letter (c : Char) (l : Text) :
    "\\".toList.isSuffixOf (c :: q :: l) = "\\".toList.isSuffixOf (q :: l) := by
  have hsuffix : "\\".toList <:+ c :: q :: l ↔ "\\".toList <:+ q :: l := by
    rw [List.suffix_cons_iff]
    simp
  rw [Bool.eq_iff_iff,List.isSuffixOf_iff_suffix,List.isSuffixOf_iff_suffix,hsuffix]

end Lines

/-! ### Sections -/

namespace Section

variable {c q : Char} {l : Text} {ls names : List Text}

structure Alike (s s' : Section) : Prop where
  rest : { s' with previous := s.previous } = s
  blank : Text.isBlank s'.previous = Text.isBlank s.previous

theorem isHeaderAt_letter (hc : c ∈ plainLetters) (hq : Lexeme.isQuote q = true) (i : Nat) :
    isHeaderAt names ((otherCase c :: q :: l) :: ls) (i + 1) = isHeaderAt names ((c :: q :: l) :: ls) (i + 1) := by
  have hlast (c : Char) (t : Text) : (c :: q :: t).getLast? = (q :: t).getLast? := by simp
  have hheader (name line : Text) : isHeader name line (otherCase c :: q :: l) = isHeader name line (c :: q :: l) := by
    unfold isHeader
    simp only [strip_letter hc hq,strip_letter (otherCase_mem hc) hq,hlast,List.isEmpty_cons]
  unfold isHeaderAt
  rw [List.getElem?_cons_succ,List.getElem?_cons_succ]
  cases ls[i]? with
  | none => rfl
  | some line =>
    cases i with
    | zero => simp only [Option.any_some,lineAbove,List.getD_cons_zero,hheader]
    | succ i => simp only [Option.any_some,lineAbove,List.getD_cons_succ]

theorem isHeaderAt_quoted {t : Text} (hquoted : Lexeme.IsQuoted (c :: q :: t))
    (hlines : Text.splitOn '\n' (c :: q :: t) = (c :: q :: l) :: ls)
    (hnames : names = numpyNames ∨ names = googleNames) :
    isHeaderAt names ((c :: q :: l) :: ls) 0 = false := by
  rw [← hlines]
  refine not_isHeaderAt_zero hquoted fun name hname => length_lower_names name (List.mem_append.mpr ?_)
  rcases hnames with rfl | rfl
  · exact .inl hname
  · exact .inr hname

theorem sectionAt_letter (hc : c ∈ plainLetters) (hq : Lexeme.isQuote q = true) (i : Nat) (next : Option Nat)  :
    Alike (sectionAt ((c :: q :: l) :: ls) (i + 1) next) (sectionAt ((otherCase c :: q :: l) :: ls) (i + 1) next) := by
  have hfollowing (c : Char) (n : Nat) :
      (((c :: q :: l) :: ls).take n).drop (i + 1 + 1) = (ls.take (n - 1)).drop (i + 1) := by
    cases n <;> simp
  have hblank {c : Char} (hc : c ∈ plainLetters) : Text.isBlank (c :: q :: l) = false := by
    rw [Text.isBlank,strip_letter hc hq]
    rfl
  constructor
  · simp only [sectionAt,List.getD_cons_succ,hfollowing,List.length_cons]
  · cases i with
    | zero => simp only [sectionAt,lineAbove,List.getD_cons_zero,hblank hc,hblank (otherCase_mem hc)]
    | succ i => simp only [sectionAt,lineAbove,List.getD_cons_succ]

/-- What is asked of sections without the line above is asked of the same ones. -/
theorem sectionsOf_letter {α : Type} {check check' : Section → α} {rest : Text} (hc : c ∈ plainLetters)
    (hq : Lexeme.isQuote q = true) (hnames : names = numpyNames ∨ names = googleNames)
    (hcheck : ∀ s s', Alike s s' → check' s' = check s) :
    (sectionsOf? names (Text.splitOn '\n' (otherCase c :: q :: rest))).map (·.map check') =
      (sectionsOf? names (Text.splitOn '\n' (c :: q :: rest))).map (·.map check) := by
  have hquoted {c : Char} (hc : c ∈ plainLetters) : Lexeme.IsQuoted (c :: q :: rest) :=
    Lexeme.isQuoted_of_literalMark (literalMark?_letter hc hq)
  obtain ⟨l,ls,hlines⟩ := exists_splitOn_letter hq rest
  have hfirst {c : Char} (hc : c ∈ plainLetters) : isHeaderAt names ((c :: q :: l) :: ls) 0 = false :=
    isHeaderAt_quoted (hquoted hc) (hlines c hc) hnames
  have hnumbers : headerNumbers names ((otherCase c :: q :: l) :: ls) =
      headerNumbers names ((c :: q :: l) :: ls) := by
    refine List.filter_congr fun i _ => ?_
    cases i with
    | zero => rw [hfirst hc,hfirst (otherCase_mem hc)]
    | succ i => exact isHeaderAt_letter hc hq i
  rw [hlines c hc,hlines _ (otherCase_mem hc),sectionsOf_eq,sectionsOf_eq,hnumbers,Option.map_some,
    Option.map_some,List.map_map,List.map_map]
  refine congrArg some (List.map_congr_left ?_)
  rintro ⟨i,next⟩ hi
  have hmem : i ∈ headerNumbers names ((c :: q :: l) :: ls) := by
    rw [← map_fst_successors (headerNumbers names ((c :: q :: l) :: ls))]
    exact List.mem_map_of_mem (f := Prod.fst) hi
  cases i with
  | zero =>
    rw [mem_headerNumbers,hfirst hc] at hmem
    cases hmem
  | succ i => exact hcheck _ _ (sectionAt_letter hc hq i next)

end Section

namespace Check

variable {s s' : Subject} {d d' : Docstring}

/-! ### The checks -/

namespace Sections

variable {x x' : Section} {indent : Text}

theorem commonSection_alike (h : x.Alike x') (names : List Text) (indent : Text) :
    commonSection names indent x' = commonSection names indent x := by
  obtain ⟨hrest,hblank⟩ := h
  cases x
  cases x'
  cases hrest
  unfold commonSection
  rw [hblank]

theorem numpySection_alike [Resources] (hmissing : ∀ documented, missingParameters documented s' = missingParameters documented s)
    (h : x.Alike x') : numpySection s' indent x' = numpySection s indent x := by
  have hcommon := commonSection_alike h Section.numpyNames indent
  obtain ⟨hrest,-⟩ := h
  cases x
  cases x'
  cases hrest
  unfold numpySection
  rw [hcommon,hmissing]
  rfl

theorem googleSection_alike [Resources] (hmissing : ∀ documented, missingParameters documented s' = missingParameters documented s)
    (h : x.Alike x') : googleSection s' indent x' = googleSection s indent x := by
  have hcommon := commonSection_alike h Section.googleNames indent
  obtain ⟨hrest,-⟩ := h
  cases x
  cases x'
  cases hrest
  unfold googleSection
  simp only [hcommon,hmissing]
  rfl

theorem ofStyle_eq (check : Section → Outcome) (found : Option (List Section)) :
    ofStyle check found = (found.map (·.map check)).elim (.ofFault .noName) Outcome.concat := by
  cases found <;> rfl

theorem all_eq [Resources] (s : Subject) (d : Docstring) : all s d =
    if (Text.splitOn '\n' d.text).length < 2 then {}
    else if Section.sectionsOf? Section.numpyNames (Text.splitOn '\n' d.text) = some [] then
      ofStyle (googleSection s (Layout.surroundings s d).indent)
        (Section.sectionsOf? Section.googleNames (Text.splitOn '\n' d.text))
    else ofStyle (numpySection s (Layout.surroundings s d).indent)
      (Section.sectionsOf? Section.numpyNames (Text.splitOn '\n' d.text)) := by
  unfold all
  dsimp only
  split
  · rfl
  · split
    · rename_i h
      rw [if_pos h]
    · rename_i h
      rw [if_neg h]

end Sections

/-- What the checks ask about the text around a docstring has the same answers. -/
structure SameSurroundings (x x' : Layout.Surroundings) : Prop where
  blanksBefore : x'.blanksBefore = x.blanksBefore
  indent : x'.indent = x.indent
  blanksAfter : x'.blanksAfter = x.blanksAfter
  endsBlank : x'.endsBlank = x.endsBlank
  opens : Layout.opensDefinition x'.after = Layout.opensDefinition x.after

/-- What the checks ask about the source lines of two subjects has the same answers. -/
structure SameContext [Resources] (s s' : Subject) (d d' : Docstring) : Prop extends
    SameSurroundings (Layout.surroundings s d) (Layout.surroundings s' d') where
  parameters : ∀ documented, Sections.missingParameters documented s' = Sections.missingParameters documented s

theorem closingQuotes_eq [Resources] (h : d.Respelt d') : Layout.closingQuotes d' = Layout.closingQuotes d := by
  have hlast : (Text.literals ["\"\"\"", "'''"]).contains (Layout.lastLine d').strip =
      (Text.literals ["\"\"\"", "'''"]).contains (Layout.lastLine d).strip := by
    obtain ⟨hc,hq⟩ := h
    exact (closing_letter (otherCase_mem hc) hq (by decide)).trans (closing_letter hc hq (by decide)).symm
  unfold Layout.closingQuotes
  rw [h.judged_eq]
  exact congrArg (d.judged ·) (funext fun t => by simp only [Text.literals,List.map] at hlast; dsimp only; rw [hlast])

theorem summaryStart_eq [Resources] (h : d.Respelt d') : Layout.summaryStart d' = Layout.summaryStart d := by
  have hfirst : Text.lower (Text.strip (d'.text.takeWhile (· ≠ '\n'))) =
      Text.lower (Text.strip (d.text.takeWhile (· ≠ '\n'))) := by
    obtain @⟨c,q,rest,_,_,hc,hq⟩ := h
    have htake {c : Char} (hc : c ∈ plainLetters) :
        (c :: q :: rest).takeWhile (· ≠ '\n') = c :: q :: rest.takeWhile (· ≠ '\n') := by
      rw [List.takeWhile_cons_of_pos (by simpa using ne_newline_letter hc),
        List.takeWhile_cons_of_pos (by simpa using ne_newline_quote hq)]
    dsimp only
    rw [htake hc,htake (otherCase_mem hc),strip_letter hc hq,strip_letter (otherCase_mem hc) hq,lower_otherCase hc]
  unfold Layout.summaryStart
  rw [h.judged_eq,hfirst]

theorem indentation_eq (h : d.Respelt d')
    (hindent : (Layout.surroundings s' d').indent = (Layout.surroundings s d).indent) :
    Layout.indentation s' d' = Layout.indentation s d := by
  have hlines : (Text.splitOn '\n' d'.text).length = (Text.splitOn '\n' d.text).length ∧
      Layout.indentedLines (Text.splitOn '\n' d'.text) = Layout.indentedLines (Text.splitOn '\n' d.text) := by
    obtain @⟨c,q,rest,_,_,hc,hq⟩ := h
    obtain ⟨l,ls,hsplit⟩ := exists_splitOn_letter hq rest
    dsimp only
    rw [hsplit c hc,hsplit _ (otherCase_mem hc)]
    refine ⟨rfl,?_⟩
    unfold Layout.indentedLines
    cases ls with
    | nil => rfl
    | cons l' ls =>
      simp only [List.drop_succ_cons,List.drop_zero,List.zip_cons_cons,List.filter_cons,isSuffixOf_letter]
      split <;> rfl
  unfold Layout.indentation
  simp only [hindent,hlines.1,hlines.2]

theorem sections_eq [Resources] (h : d.Respelt d')
    (hindent : (Layout.surroundings s' d').indent = (Layout.surroundings s d).indent)
    (hmissing : ∀ documented, Sections.missingParameters documented s' = Sections.missingParameters documented s) :
    Sections.all s' d' = Sections.all s d := by
  have hlength : (Text.splitOn '\n' d'.text).length = (Text.splitOn '\n' d.text).length := by
    obtain @⟨c,q,rest,_,_,hc,hq⟩ := h
    obtain ⟨l,ls,hsplit⟩ := exists_splitOn_letter hq rest
    dsimp only
    rw [hsplit c hc,hsplit _ (otherCase_mem hc)]
    rfl
  have hstyle {α : Type} {names : List Text} (check check' : Section → α)
      (hnames : names = Section.numpyNames ∨ names = Section.googleNames)
      (hcheck : ∀ x x', x.Alike x' → check' x' = check x) :
      (Section.sectionsOf? names (Text.splitOn '\n' d'.text)).map (·.map check') =
        (Section.sectionsOf? names (Text.splitOn '\n' d.text)).map (·.map check) := by
    obtain ⟨hc,hq⟩ := h
    exact Section.sectionsOf_letter hc hq hnames hcheck
  have hnone : Section.sectionsOf? Section.numpyNames (Text.splitOn '\n' d'.text) = some [] ↔
      Section.sectionsOf? Section.numpyNames (Text.splitOn '\n' d.text) = some [] := by
    have hunit := hstyle (fun _ => ()) (fun _ => ()) (.inl rfl) fun _ _ _ => rfl
    have hiff (o : Option (List Section)) : o = some [] ↔ o.map (·.map fun _ => ()) = some [] := by
      cases o <;> simp
    rw [hiff,hunit,← hiff]
  rw [Sections.all_eq,Sections.all_eq]
  simp only [hlength,hnone,hindent,Sections.ofStyle_eq]
  rw [hstyle _ _ (.inl rfl) fun _ _ => Sections.numpySection_alike hmissing,
    hstyle _ _ (.inr rfl) fun _ _ => Sections.googleSection_alike hmissing]

end Check

end DocLint
