import DocLint.Proofs.Check.Sections
import DocLint.Proofs.Token.Located

/-!
The sections of a docstring divide its lines. Headers are found by their numbers; each of them has the
lines up to the next one, and the last line of all belongs to no section unless it is a header.
-/

set_option autoImplicit false

namespace DocLint

section Successors

variable {α β : Type}

theorem successors_cons (a : α) (l : List α) : successors (a :: l) = (a, l.head?) :: successors l := by
  cases l <;> rfl

theorem successors_map (f : α → β) (l : List α) :
    successors (l.map f) = (successors l).map fun p => (f p.1, p.2.map f) := by
  induction l with
  | nil => rfl
  | cons a l ih => simp [successors_cons,ih]

theorem map_fst_successors (l : List α) : (successors l).map (·.1) = l := by
  induction l with
  | nil => rfl
  | cons a l ih => rw [successors_cons,List.map_cons,ih]

theorem getElem?_successors (l : List α) (k : Nat) :
    (successors l)[k]? = l[k]?.map fun a => (a, l[k + 1]?) := by
  induction l generalizing k with
  | nil => simp [successors]
  | cons a l ih =>
    cases k with
    | zero => simp [successors_cons,List.head?_eq_getElem?]
    | succ k => simp [successors_cons,ih]

end Successors

namespace Section

variable {names lines : List Text} {i j k : Nat}

/-! ### Headers by their numbers -/

def lineAbove (lines : List Text) : Nat → Text
  | 0 => lines.getLastD []
  | i + 1 => lines.getD i []

def isHeaderAt (names lines : List Text) (i : Nat) : Bool :=
  lines[i]?.any fun line =>
    isSuspect (names.map Text.lower) line && isHeader (leadingWords line) line (lineAbove lines i)

def headerNumbers (names lines : List Text) : List Nat :=
  (List.range lines.length).filter (isHeaderAt names lines)

/-- The section below a header, given by its number and that of the next one. -/
def sectionAt (lines : List Text) (i : Nat) (next : Option Nat) : Section :=
  { name := leadingWords (lines.getD i []), previous := lineAbove lines i, line := lines.getD i []
    following := (lines.take (next.getD (lines.length - 1))).drop (i + 1), index := i
    isLast := next.isNone }

theorem lt_of_isHeaderAt (h : isHeaderAt names lines i = true) : i < lines.length := by
  unfold isHeaderAt at h
  cases hi : lines[i]? with
  | none => simp [hi] at h
  | some line => exact (List.getElem?_eq_some_iff.mp hi).1

theorem mem_headerNumbers : i ∈ headerNumbers names lines ↔ isHeaderAt names lines i = true := by
  simp only [headerNumbers,List.mem_filter,List.mem_range]
  exact ⟨And.right,fun h => ⟨lt_of_isHeaderAt h,h⟩⟩

theorem headerNumbers_ascend (names lines : List Text) :
    (headerNumbers names lines).Pairwise (· < ·) := List.pairwise_lt_range.filter _

theorem zipIdx_lines (lines : List Text) :
    ((lines.getLastD [] :: lines).zip lines).zipIdx =
      (List.range lines.length).map fun i => ((lineAbove lines i, lines.getD i []), i) := by
  refine List.ext_getElem (by simp) fun i h _ => ?_
  have hi : i < lines.length := by simpa using h
  cases i with
  | zero => simp [lineAbove,hi]
  | succ i => simp [lineAbove,hi,Nat.lt_of_succ_lt hi]

theorem mapM_some {α β : Type} {f : α → Option β} {g : α → β} {l : List α}
    (h : ∀ a ∈ l, f a = some (g a)) : l.mapM f = some (l.map g) := by
  induction l with
  | nil => rfl
  | cons a l ih => simp [h a (by simp),ih fun a' ha' => h a' (by simp [ha'])]

theorem headers_eq (names lines : List Text) : headers? names lines =
    some ((headerNumbers names lines).map fun i =>
      (i, leadingWords (lines.getD i []), lineAbove lines i, lines.getD i [])) := by
  have hnamed : (suspects names lines).mapM named? = some ((suspects names lines).map fun p =>
      (p.2, leadingWords p.1.2, p.1.1, p.1.2)) := by
    refine mapM_some ?_
    rintro ⟨⟨previous,line⟩,i⟩ hmem
    obtain ⟨words,hwords⟩ := leadingWords_of_isSuspect (List.mem_filter.mp hmem).2
    have hsame : leadingWords line = words := by
      simp only [leadingWords?] at hwords
      split at hwords
      · cases hwords
      · exact Option.some.inj hwords
    rw [named?,hwords,hsame]
    rfl
  unfold headers?
  rw [hnamed,Option.map_some,suspects,zipIdx_lines,List.filter_map,List.filter_filter,List.filter_map,
    List.map_map,headerNumbers]
  refine congrArg some (congrArg _ (List.filter_congr fun i hi => ?_))
  have hline : lines[i]? = some (lines.getD i []) := by
    simp [List.getElem?_eq_getElem (List.mem_range.mp hi)]
  simp only [isHeaderAt,hline,Option.any_some,Function.comp_apply,Bool.and_comm]

theorem sectionsOf_eq (names lines : List Text) : sectionsOf? names lines =
    some ((successors (headerNumbers names lines)).map fun p => sectionAt lines p.1 p.2) := by
  rw [sectionsOf?,headers_eq,Option.map_some,successors_map,List.map_map]
  refine congrArg some (List.map_congr_left ?_)
  rintro ⟨i,next⟩ -
  cases next <;> rfl

/-! ### The lines of the sections -/

theorem drop_split (hij : i < j) (hj : j ≤ lines.length) :
    lines.getD i [] :: (lines.take j).drop (i + 1) ++ lines.drop j = lines.drop i := by
  have hi : i < lines.length := Nat.lt_of_lt_of_le hij hj
  have hline : lines.getD i [] = lines[i] := by simp [List.getElem?_eq_getElem hi]
  have hrest : (lines.take j).drop (i + 1) ++ lines.drop j = lines.drop (i + 1) := by
    rw [← List.drop_append_of_le_length (by rw [List.length_take]; omega),List.take_append_drop]
  rw [List.drop_eq_getElem_cons hi,hline,List.cons_append,hrest]

theorem drop_last (hi : i < lines.length) :
    lines.getD i [] :: (lines.take (lines.length - 1)).drop (i + 1) ++
      (if lines.length - 1 = i then [] else lines.getLast?.toList) = lines.drop i := by
  have hlast : lines.drop (lines.length - 1) = lines.getLast?.toList := by
    have hlt : lines.length - 1 < lines.length := by omega
    rw [List.drop_eq_getElem_cons hlt,List.drop_eq_nil_of_le (by omega),List.getLast?_eq_getElem?,
      List.getElem?_eq_getElem hlt]
    rfl
  split
  · rename_i heq
    have hnone : (lines.take (lines.length - 1)).drop (i + 1) = [] := by
      refine List.drop_eq_nil_of_le ?_
      rw [List.length_take]
      omega
    rw [hnone,List.append_nil,List.drop_eq_getElem_cons hi,List.drop_eq_nil_of_le (by omega)]
    simp [List.getElem?_eq_getElem hi]
  · rw [← hlast]
    exact drop_split (by omega) (Nat.sub_le _ _)

/-- Headers with the lines that belong to them, and then the last line unless it is one of them, are all
the lines from the first header on. -/
theorem flatMap_successors {l : List Nat} (hl : (i :: l).Pairwise (· < ·))
    (hlt : ∀ j ∈ i :: l, j < lines.length) :
    ((successors (i :: l)).map fun p => sectionAt lines p.1 p.2).flatMap (fun s => s.line :: s.following) ++
      (if lines.length - 1 ∈ i :: l then [] else lines.getLast?.toList) = lines.drop i := by
  induction l generalizing i with
  | nil =>
    simpa [successors,sectionAt] using drop_last (hlt i (by simp))
  | cons j l ih =>
    have hij : i < j := List.rel_of_pairwise_cons hl (by simp)
    have hj : j < lines.length := hlt j (by simp)
    have hrest := ih hl.of_cons fun k hk => hlt k (by simp [hk])
    have hmem : lines.length - 1 ∈ i :: j :: l ↔ lines.length - 1 ∈ j :: l := by
      have : lines.length - 1 ≠ i := by omega
      simp [this]
    simp only [hmem]
    rw [successors_cons,List.map_cons,List.flatMap_cons,List.append_assoc,hrest]
    exact drop_split hij (Nat.le_of_lt hj)

structure Divides (names lines : List Text) (found : List Section) : Prop where
  ascending : found.Pairwise fun s s' => s.index < s'.index
  exactly : ∀ i, (∃ s ∈ found, s.index = i) ↔ isHeaderAt names lines i = true
  header : ∀ s ∈ found, lines[s.index]? = some s.line ∧ s.name = leadingWords s.line ∧
    s.previous = lineAbove lines s.index
  between : ∀ k s next, found[k]? = some s → found[k + 1]? = some next →
    s.following = (lines.take next.index).drop (s.index + 1)
  /-- The last section has the lines behind its header without the last one of all. -/
  behindLast : ∀ s, found.getLast? = some s → s.following = (lines.drop (s.index + 1)).dropLast
  last : ∀ k s, found[k]? = some s → (s.isLast = true ↔ k + 1 = found.length)
  rejoined : ∀ first, found.head? = some first →
    lines.take first.index ++ found.flatMap (fun s => s.line :: s.following) ++
      (if isHeaderAt names lines (lines.length - 1) then [] else lines.getLast?.toList) = lines

theorem getElem?_sections (lines : List Text) (l : List Nat) (k : Nat) :
    ((successors l).map fun p => sectionAt lines p.1 p.2)[k]? =
      l[k]?.map fun i => sectionAt lines i l[k + 1]? := by
  rw [List.getElem?_map,getElem?_successors,Option.map_map]
  rfl

theorem map_index_sections (lines : List Text) (l : List Nat) :
    ((successors l).map fun p => sectionAt lines p.1 p.2).map (·.index) = l := by
  refine List.ext_getElem? fun k => ?_
  rw [List.getElem?_map,getElem?_sections,Option.map_map]
  cases l[k]? <;> rfl

theorem divides (names lines : List Text) : Divides names lines
    ((successors (headerNumbers names lines)).map fun p => sectionAt lines p.1 p.2) := by
  have hasc := headerNumbers_ascend names lines
  have hmem {i} := @mem_headerNumbers names lines i
  generalize headerNumbers names lines = l at hasc hmem
  have hindex := map_index_sections lines l
  have hget := getElem?_sections lines l
  have hlength : ((successors l).map fun p => sectionAt lines p.1 p.2).length = l.length := by
    have := congrArg List.length hindex
    rwa [List.length_map] at this
  generalize hfound : (successors l).map (fun p => sectionAt lines p.1 p.2) = found at *
  have hat {k s} (h : found[k]? = some s) : ∃ i, l[k]? = some i ∧ s = sectionAt lines i l[k + 1]? := by
    rw [hget] at h
    obtain ⟨i,hi,rfl⟩ := Option.map_eq_some_iff.mp h
    exact ⟨i,hi,rfl⟩
  constructor
  case ascending => exact List.pairwise_map.mp (hindex ▸ hasc)
  case exactly =>
    intro i
    rw [← hmem,← hindex,List.mem_map]
  case header =>
    intro s hs
    obtain ⟨k,hk⟩ := List.mem_iff_getElem?.mp hs
    obtain ⟨i,hi,rfl⟩ := hat hk
    have hlt := lt_of_isHeaderAt (hmem.mp (List.mem_of_getElem? hi))
    exact ⟨by simp [sectionAt,List.getElem?_eq_getElem hlt],rfl,rfl⟩
  case between =>
    intro k s next hk hnext
    obtain ⟨i,hi,rfl⟩ := hat hk
    obtain ⟨j,hj,rfl⟩ := hat hnext
    simp [sectionAt,hj]
  case behindLast =>
    intro s hs
    rw [List.getLast?_eq_getElem?] at hs
    obtain ⟨i,hi,rfl⟩ := hat hs
    have hnone : l[found.length - 1 + 1]? = none := by
      refine List.getElem?_eq_none_iff.mpr ?_
      omega
    simp only [sectionAt,hnone,Option.getD_none]
    rw [List.dropLast_eq_take,List.length_drop,List.drop_take]
    congr 1
    omega
  case last =>
    intro k s hk
    obtain ⟨i,hi,rfl⟩ := hat hk
    have hlt := (List.getElem?_eq_some_iff.mp hi).1
    simp only [sectionAt,Option.isNone_iff_eq_none,List.getElem?_eq_none_iff]
    omega
  case rejoined =>
    intro first hfirst
    rw [List.head?_eq_getElem?] at hfirst
    obtain ⟨i,hi,rfl⟩ := hat hfirst
    obtain ⟨rest,rfl⟩ : ∃ rest, l = i :: rest := by
      cases l with
      | nil => cases hi
      | cons j rest => exact ⟨rest,by rw [Option.some.inj hi]⟩
    have hrest := flatMap_successors hasc fun j hj => lt_of_isHeaderAt (hmem.mp hj)
    rw [hfound] at hrest
    simp only [hmem] at hrest
    rw [List.append_assoc,hrest]
    exact List.take_append_drop i lines

/-! ### Sections of a docstring -/

theorem splitOn_append {sep : Char} {a b : Text} (h : sep ∉ a) :
    ∃ l ls, Text.splitOn sep (a ++ b) = (a ++ l) :: ls := by
  induction a with
  | nil =>
    cases hb : Text.splitOn sep b with
    | nil => exact absurd hb (Text.splitOn_ne_nil sep b)
    | cons l ls => exact ⟨l,ls,hb⟩
  | cons c a ih =>
    obtain ⟨l,ls,hl⟩ := ih fun hc => h (List.mem_cons_of_mem c hc)
    have hc : c ≠ sep := fun hc => h (hc ▸ List.mem_cons_self)
    exact ⟨l,ls,by simp [Text.splitOn,hl,hc]⟩

/-- Characters of ASCII that are no whitespace, and neither is their lower case form. -/
def isPlain (c : Char) : Bool := Text.isAscii c && !Text.isSpace (Text.lowerAscii c)

theorem lowerAfter_plain {before a b : Text} (h : ∀ c ∈ a, isPlain c = true) :
    ∃ before', Text.lowerAfter before (a ++ b) = a.map Text.lowerAscii ++ Text.lowerAfter before' b := by
  induction a generalizing before with
  | nil => exact ⟨before,rfl⟩
  | cons c a ih =>
    obtain ⟨hc,ha⟩ := List.forall_mem_cons.mp h
    obtain ⟨before',hrest⟩ := @ih (c :: before) ha
    have hascii : Text.isAscii c = true := (Bool.and_eq_true_iff.mp hc).1
    have hsigma : c ≠ Text.capitalSigma := by
      rintro rfl
      exact absurd hascii (by decide)
    refine ⟨before',?_⟩
    simp [Text.lowerAfter,Text.lowerIn,Text.lowerChar,hsigma,hascii,hrest]

theorem strip_plain {a b : Text} {c : Char} (ha : ∀ c ∈ a, Text.isSpace c = false)
    (hc : Text.isSpace c = false) : Text.strip (a ++ c :: b) = a ++ c :: Text.stripRight b := by
  have hright {a b : Text} (ha : ∀ c ∈ a, Text.isSpace c = false) :
      Text.stripRight (a ++ c :: b) = a ++ c :: Text.stripRight b := by
    induction a with
    | nil => exact Text.stripRight_cons hc
    | cons d a ih =>
      obtain ⟨hd,ha⟩ := List.forall_mem_cons.mp ha
      rw [List.cons_append,Text.stripRight_cons hd,ih ha,List.cons_append]
  have hleft : Text.stripLeft (a ++ c :: b) = a ++ c :: b := by
    cases a with
    | nil => simp [Text.stripLeft,hc]
    | cons d a => simp [Text.stripLeft,ha d]
  rw [Text.strip,hleft,hright ha]

theorem leadingWords_quoted {mark l : Text} {q : Char} (hm : Lexeme.isLiteralMark mark = true)
    (hq : Lexeme.isQuote q = true) :
    leadingWords (Text.lower (mark ++ q :: l)) = mark.map Text.lowerAscii := by
  have hletters : Lexeme.markLetters.all (fun c => isPlain c && Text.isWord (Text.lowerAscii c)) = true := by
    decide
  have hmark : ∀ c ∈ mark, isPlain c = true ∧ Text.isWord (Text.lowerAscii c) = true := fun c hc =>
    Bool.and_eq_true_iff.mp (List.all_eq_true.mp hletters c (Lexeme.markLetter_of_mem hm hc))
  have hquote : isPlain q = true ∧ Text.lowerAscii q = q ∧ Text.isWord q = false ∧ q ≠ ' ' := by
    have hq' : q = '"' ∨ q = '\'' := by simpa [Lexeme.isQuote] using hq
    obtain rfl | rfl := hq' <;> decide
  obtain ⟨hplain,hlow,hword,hblank⟩ := hquote
  obtain ⟨before',hlower⟩ := @lowerAfter_plain [] (mark ++ [q]) l (by
    intro c hc
    rcases List.mem_append.mp hc with hc | hc
    · exact (hmark c hc).1
    · exact List.mem_singleton.mp hc ▸ hplain)
  have hspace {c : Char} (hc : isPlain c = true) : Text.isSpace (Text.lowerAscii c) = false := by
    simpa using (Bool.and_eq_true_iff.mp hc).2
  have hline : Text.lower (mark ++ q :: l) =
      mark.map Text.lowerAscii ++ q :: Text.lowerAfter before' l := by
    simpa [Text.lower,hlow] using hlower
  rw [leadingWords,hline,strip_plain ?_ (hlow ▸ hspace hplain),List.takeWhile_append_of_pos ?_,
    List.takeWhile_cons_of_neg (by simp [hword,hblank]),List.append_nil]
  · intro c hc
    obtain ⟨d,hd,rfl⟩ := List.mem_map.mp hc
    simp [(hmark d hd).2]
  · intro c hc
    obtain ⟨d,hd,rfl⟩ := List.mem_map.mp hc
    exact hspace (hmark d hd).1

/-- The first line of a literal is no header where all names are longer than a mark. -/
theorem not_isHeaderAt_zero {t : Text} (ht : Lexeme.IsQuoted t)
    (hnames : ∀ name ∈ names, 2 < (Text.lower name).length) :
    isHeaderAt names (Text.splitOn '\n' t) 0 = false := by
  obtain ⟨mark,q,rest,rfl,hm,hq⟩ := ht
  have hfeed : '\n' ∉ mark ++ [q] := by
    intro h
    rcases List.mem_append.mp h with h | h
    · exact absurd (Lexeme.markLetter_of_mem hm h) (by decide)
    · rw [← List.mem_singleton.mp h] at hq
      exact absurd hq (by decide)
  obtain ⟨l,ls,hl⟩ := splitOn_append (b := rest) hfeed
  simp only [List.append_assoc,List.cons_append,List.nil_append] at hl
  have hwords : isSuspect (names.map Text.lower) (mark ++ q :: l) = false := by
    rw [isSuspect,leadingWords_quoted hm hq,Bool.and_eq_false_imp]
    intro _
    rw [Bool.eq_false_iff,Ne,List.contains_iff_mem,List.mem_map]
    rintro ⟨name,hname,heq⟩
    have hlong := hnames name hname
    have hshort := Lexeme.length_of_isLiteralMark hm
    rw [heq,List.length_map] at hlong
    omega
  simp [isHeaderAt,hl,hwords]

theorem length_lower_names : ∀ name ∈ numpyNames ++ googleNames, 2 < (Text.lower name).length := by
  decide +kernel

/-- The sections of any lines divide them. Where the lines are those of a string and the names those of
a style, no section begins on the first line, so that each has the line above its header. -/
theorem sectionsOf_divides (names lines : List Text) :
    ∃ found, sectionsOf? names lines = some found ∧ Divides names lines found ∧
      ∀ source, ∀ t ∈ (Scan.ofText source).tokens, t.kind = .string →
        lines = Text.splitOn '\n' t.value → names = numpyNames ∨ names = googleNames →
        ∀ s ∈ found, 0 < s.index ∧ lines[s.index - 1]? = some s.previous := by
  have hdivides := divides names lines
  refine ⟨_,sectionsOf_eq names lines,hdivides,?_⟩
  rintro source t ht hkind rfl hnames s hs
  have hlong : ∀ name ∈ names, 2 < (Text.lower name).length := by
    intro name hname
    refine length_lower_names name (List.mem_append.mpr ?_)
    rcases hnames with rfl | rfl
    · exact .inl hname
    · exact .inr hname
  have hquoted := (Scan.located_ofText source t ht).quoted hkind
  have hheader := (hdivides.exactly s.index).mp ⟨s,hs,rfl⟩
  cases hindex : s.index with
  | zero =>
    rw [hindex,not_isHeaderAt_zero hquoted hlong] at hheader
    cases hheader
  | succ i =>
    have hprevious := (hdivides.header s hs).2.2
    have hlt := lt_of_isHeaderAt hheader
    rw [hindex] at hprevious hlt
    refine ⟨Nat.succ_pos i,?_⟩
    rw [hprevious,lineAbove,Nat.add_sub_cancel]
    simp [List.getElem?_eq_getElem (Nat.lt_of_succ_lt hlt)]

/-- A docstring with two sections, the second one on the line before the last. -/
def twoSections : Text := "\"\"\"Doc.\n\nReturns\n-------\nx\n\nNotes\n\"\"\"\n"

theorem twoSections_divides : ∃ t ∈ (Scan.ofText twoSections).tokens, t.kind = .string ∧
    ∃ found, sectionsOf? numpyNames (Text.splitOn '\n' t.value) = some found ∧
      found.map (fun s => (s.index, s.following.length, s.isLast)) = [(2, 3, false), (6, 0, true)] ∧
      Divides numpyNames (Text.splitOn '\n' t.value) found ∧ ∀ s ∈ found, 0 < s.index := by
  have htoken : ∃ t ∈ (Scan.ofText twoSections).tokens, t.kind = .string ∧
      (sectionsOf? numpyNames (Text.splitOn '\n' t.value)).map
        (·.map fun s => (s.index, s.following.length, s.isLast)) = some [(2, 3, false), (6, 0, true)] := by
    decide +kernel
  obtain ⟨t,ht,hkind,hparts⟩ := htoken
  obtain ⟨found,hfound,hdivides,hfirst⟩ := sectionsOf_divides numpyNames (Text.splitOn '\n' t.value)
  rw [hfound] at hparts
  refine ⟨t,ht,hkind,found,hfound,Option.some.inj hparts,hdivides,fun s hs => ?_⟩
  exact (hfirst twoSections t ht hkind rfl (.inl rfl) s hs).1

end Section

end DocLint
