import DocLint.Proofs.Check.ArgumentText

/-!
The arguments that a section describes, where its lines are written from entries at one indentation:
those whose names are words and that have a description. Whitespace passes for one, except in the last
entry.
-/

set_option autoImplicit false

namespace DocLint.Check.Sections

def strays (t : Text) : List Text :=
  match entries (strayLines t) with
  | .ok found => found.filterMap describedArgument?
  | .error _ => []

namespace ArgumentEntry

variable {indent : Text} (e : ArgumentEntry indent)

def isCounted (isLast : Bool) : Bool :=
  e.name.all Text.isWord && (e.isDescribed || (!isLast && e.leavesTrace))

def counted (isLast : Bool) : List Text :=
  (if e.isCounted isLast then [e.name] else []) ++ strays (e.text isLast)

end ArgumentEntry

/-! ### Entry after entry -/

def Names (lines names : List Text) : Prop :=
  ∃ found, entries lines = .ok found ∧ found.filterMap describedArgument? = names

section Run

variable {indent t : Text} {a b x y : List Text}

theorem Names.append (ha : Names a x) (hb : Names b y) (h : ∀ l, b.head? = some l → continues l = false) :
    Names (a ++ b) (x ++ y) := by
  obtain ⟨found,hfound,rfl⟩ := ha
  obtain ⟨more,hmore,rfl⟩ := hb
  exact ⟨found ++ more,entries_append hfound hmore h,List.filterMap_append⟩

theorem names_strayLines (t : Text) : Names (strayLines t) (strays t) := by
  obtain ⟨found,hfound⟩ := exists_entries (head_strayLines t)
  exact ⟨found,hfound,by rw [strays,hfound]⟩

theorem ArgumentEntry.names_text (hi : Text.isMargin indent = true) (e : ArgumentEntry indent) (isLast : Bool) :
    Names (Text.splitLines (e.opening ++ e.text isLast)) (e.counted isLast) := by
  obtain ⟨c,cs,hopening,hc⟩ := e.exists_opening
  obtain ⟨found,hfound,hstrays⟩ := names_strayLines (e.text isLast)
  have hsolid := e.isLineBreak_opening
  have hname : describedArgument? (e.opening ++ ownPart (e.text isLast)) =
      if e.isCounted isLast then some e.name else none := by
    rw [e.describedArgument_opening,hasDescription_ownPart (e.hangs_text isLast),e.hasDescription_text hi,isCounted]
  refine ⟨(e.opening ++ ownPart (e.text isLast)) :: found,?_,?_⟩
  · rw [hopening] at hsolid ⊢
    exact entries_opening hc hsolid hfound
  · rw [List.filterMap_cons,hname,hstrays,counted]
    cases e.isCounted isLast <;> rfl

def writtenLines (es : List (ArgumentEntry indent)) : List Text :=
  es.flatMap fun e => (e.opening ++ e.rest) :: e.plainBelow

def countedNames (es : List (ArgumentEntry indent)) : List Text :=
  (successors es).flatMap fun p => p.1.counted p.2.isNone

theorem join_lines (e : ArgumentEntry indent) :
    Text.join ['\n'] ((e.opening ++ e.rest) :: e.plainBelow) = e.opening ++ e.behind :=
  join_cons_append ['\n'] e.opening e.rest e.plainBelow

theorem join_writtenLines_single (e : ArgumentEntry indent) :
    Text.join ['\n'] (writtenLines [e]) = e.opening ++ e.behind := by
  rw [← join_lines,writtenLines,List.flatMap_singleton]

theorem join_writtenLines_cons (e e' : ArgumentEntry indent) (es : List (ArgumentEntry indent)) :
    Text.join ['\n'] (writtenLines (e :: e' :: es)) =
      e.opening ++ (e.behind ++ '\n' :: Text.join ['\n'] (writtenLines (e' :: es))) := by
  rw [writtenLines,List.flatMap_cons,Text.join_append (List.cons_ne_nil _ _) (by simp),join_lines]
  simp [writtenLines]

theorem exists_writtenLines (e : ArgumentEntry indent) (es : List (ArgumentEntry indent)) :
    ∃ (c : Char) (t : Text), Text.join ['\n'] (writtenLines (e :: es)) = c :: t ∧
      Text.isSpace c = false := by
  obtain ⟨c,cs,hopening,hc⟩ := e.exists_opening
  cases es with
  | nil => exact ⟨c,_,by rw [join_writtenLines_single,hopening]; rfl,hc⟩
  | cons e' es => exact ⟨c,_,by rw [join_writtenLines_cons,hopening]; rfl,hc⟩

theorem strip_opening (e : ArgumentEntry indent) (t : Text) :
    Text.strip (e.opening ++ t) = e.opening ++ t.stripRight := by
  have hleft : Text.stripLeft (e.opening ++ t) = e.opening ++ t := by
    obtain ⟨c,cs,hopening,hc⟩ := e.exists_opening
    rw [hopening]
    exact stripLeft_cons hc
  have hcolon (u : Text) : e.opening ++ u = (e.name ++ (e.gap ++ e.hinted)) ++ ':' :: u := by
    simp [ArgumentEntry.opening]
  rw [Text.strip,hleft,hcolon,hcolon]
  exact Text.stripRight_append rfl

/-- By induction on the entries: each ends at the line feed before the next one. -/
theorem names_writtenLines (hi : Text.isMargin indent = true) (e : ArgumentEntry indent)
    (es : List (ArgumentEntry indent)) :
    Names (Text.splitLines (Text.strip (Text.join ['\n'] (writtenLines (e :: es))))) (countedNames (e :: es)) := by
  induction es generalizing e with
  | nil =>
    rw [join_writtenLines_single,strip_opening]
    simpa [countedNames,successors,ArgumentEntry.text] using e.names_text hi true
  | cons e' es ih =>
    obtain ⟨c,t,hnext,hc⟩ := exists_writtenLines e' es
    have hfirst : Names (Text.splitLines (e.opening ++ (e.behind ++ ['\n']))) (e.counted false) :=
      e.names_text hi false
    have hrest := ih e'
    rw [hnext,Text.strip,stripLeft_cons hc,Text.stripRight_cons hc] at hrest
    have hstrip : Text.stripRight (e.behind ++ '\n' :: c :: t) = e.behind ++ '\n' :: c :: t.stripRight := by
      simpa using Text.stripRight_append (a := e.behind ++ ['\n']) (b := t) hc
    have hopens : ∀ l, (Text.splitLines (c :: t.stripRight)).head? = some l → continues l = false := by
      obtain ⟨l,ls,hl⟩ := Text.splitLines_cons c t.stripRight
      simp [hl,continues,hc]
    rw [join_writtenLines_cons,strip_opening,hnext,hstrip,← List.append_assoc,Text.splitLines_feed,
      List.append_assoc]
    simpa [countedNames,successors] using hfirst.append hrest hopens

end Run

/-! ### The arguments of a section -/

section Whole

variable {indent : Text} {ls : List Text}

theorem marginOf_cons {c : Char} {t : Text} (h : Text.isSpace c = false) :
    Text.isMargin (c :: t) = false ∧ Text.marginOf (c :: t) = [] := by
  have hc : Text.isMarginChar c = false := by
    rw [Bool.eq_false_iff,ne_eq,isMarginChar_iff]
    rintro (rfl | rfl) <;> cases h
  simp [Text.isMargin,Text.marginOf,hc]

theorem dedentLines_kept (hi : Text.isMargin indent = true) (h : ∀ l ∈ ls, isKept indent l = true)
    (hflush : ∃ c t, indent ++ c :: t ∈ ls ∧ Text.isSpace c = false) :
    Text.dedentLines ls = ls.map (plainLine indent) := by
  obtain ⟨c,t,hmem,hc⟩ := hflush
  rw [← Text.dedentLines_moved hi,Text.dedentLines_flush,List.map_map]
  · rfl
  · exact ⟨c :: t,List.mem_map.mpr ⟨_,hmem,List.drop_left⟩,marginOf_cons hc⟩
  · intro l hl
    rcases Bool.or_eq_true_iff.mp (h l hl) with hp | hempty
    · obtain ⟨u,rfl⟩ := List.isPrefixOf_iff_prefix.mp hp
      exact Or.inr ⟨u,rfl⟩
    · rw [List.isEmpty_iff.mp hempty]
      exact Or.inl rfl

theorem depthOf_lines (hi : Text.isMargin indent = true) (e : ArgumentEntry indent)
    (es : List (ArgumentEntry indent)) : depthOf ((e :: es).flatMap (·.lines)) = indent := by
  obtain ⟨c,cs,hopening,hc⟩ := e.exists_opening
  have hblank : Text.isBlank (c :: (cs ++ e.rest)) = false := by
    rw [Bool.eq_false_iff,ne_eq,Text.isBlank_iff]
    exact fun h => by simp [h c (by simp)] at hc
  simp only [List.flatMap_cons,ArgumentEntry.lines,hopening,List.cons_append,depthOf,isBlank_append hi,hblank,
    Bool.false_eq_true,if_false,Text.leadingSpace]
  rw [List.takeWhile_append_of_pos (isSpace_of_mem_gap hi),List.takeWhile_cons_of_neg (by simp [hc]),List.append_nil]

theorem map_keptLines (es : List (ArgumentEntry indent)) :
    ((es.flatMap (·.lines)).filter (isKept indent)).map (plainLine indent) = writtenLines es := by
  induction es with
  | nil => rfl
  | cons e es ih =>
    obtain ⟨c,cs,hopening,hc⟩ := e.exists_opening
    have hkept : isKept indent (indent ++ (e.opening ++ e.rest)) = true := by simp [isKept]
    have hplain : plainLine indent (indent ++ (e.opening ++ e.rest)) = e.opening ++ e.rest := by
      rw [hopening]
      exact plainLine_append (marginOf_cons hc).1
    rw [List.flatMap_cons,List.filter_append,List.map_append,ih,ArgumentEntry.lines,List.filter_cons_of_pos hkept,
      List.map_cons,hplain]
    rfl

theorem feedless_lines (hi : Text.isMargin indent = true) (e : ArgumentEntry indent) :
    ∀ l ∈ e.lines, '\n' ∉ l := by
  have hindent : '\n' ∉ indent := fun h => by cases isLineBreak_of_mem_gap hi _ h
  refine List.forall_mem_cons.mpr ⟨?_,fun l hl => (e.isBelow l hl).1⟩
  simp only [List.mem_append,not_or]
  exact ⟨hindent,e.feedless_opening,e.isRest⟩

theorem argumentLines_entries (hi : Text.isMargin indent = true) (e : ArgumentEntry indent)
    (es : List (ArgumentEntry indent)) : argumentLines ((e :: es).flatMap (·.lines)) =
      Text.splitLines (Text.strip (Text.join ['\n'] (writtenLines (e :: es)))) := by
  have hkept : keptLines ((e :: es).flatMap (·.lines)) =
      ((e :: es).flatMap (·.lines)).filter (isKept indent) := by rw [keptLines,depthOf_lines hi]
  have hfeed : ∀ l ∈ ((e :: es).flatMap (·.lines)).filter (isKept indent), '\n' ∉ l := by
    intro l hl
    obtain ⟨e',-,hl⟩ := List.mem_flatMap.mp (List.mem_filter.mp hl).1
    exact feedless_lines hi e' l hl
  have hflush : ∃ c t, indent ++ c :: t ∈ ((e :: es).flatMap (·.lines)).filter (isKept indent) ∧
      Text.isSpace c = false := by
    obtain ⟨c,cs,hopening,hc⟩ := e.exists_opening
    exact ⟨c,cs ++ e.rest,by simp [ArgumentEntry.lines,hopening,isKept],hc⟩
  rw [argumentLines_eq,hkept,String.toList_ofList,Text.dedent_join hfeed,
    dedentLines_kept hi (fun l hl => (List.mem_filter.mp hl).2) hflush,map_keptLines]

def ArgumentEntry.isFlat (e : ArgumentEntry indent) : Bool :=
  (e.rest :: e.below).all fun l => l.all fun c => !Text.isLineBreak c

theorem strays_text {e : ArgumentEntry indent} (h : e.isFlat = true) (isLast : Bool) :
    strays (e.text isLast) = [] := by
  have hfeeds : ∀ c ∈ e.text isLast, Text.isLineBreak c = true → c = '\n' := by
    intro c hc hbreak
    refine Classical.not_not.mp fun hne => ?_
    obtain ⟨l,hl,hcl⟩ := e.mem_of_mem_behind (e.mem_behind_of_mem_text hc hne) hne
    simpa [hbreak] using List.all_eq_true.mp (List.all_eq_true.mp h l hl) c hcl
  rw [strays,strayLines_of_feeds (e.hangs_text isLast) hfeeds]
  rfl

theorem describedArguments_entries (hi : Text.isMargin indent = true) (es : List (ArgumentEntry indent))
    (s : Section) (h : s.following = es.flatMap (·.lines)) : describedArguments s = .ok (countedNames es) := by
  cases es with
  | nil =>
    rw [describedArguments,h]
    rfl
  | cons e es =>
    obtain ⟨found,hfound,hnames⟩ := names_writtenLines hi e es
    rw [describedArguments,h,argumentLines_entries hi,hfound,← hnames]
    rfl

theorem countedNames_flat (es : List (ArgumentEntry indent)) (h : ∀ e ∈ es, e.isFlat = true) : countedNames es =
    ((successors es).filter fun p => p.1.isCounted p.2.isNone).map fun p => p.1.name := by
  induction es with
  | nil => rfl
  | cons e es ih =>
    obtain ⟨he,hes⟩ := List.forall_mem_cons.mp h
    have hrest : countedNames es = _ := ih hes
    rw [countedNames,successors_cons,List.flatMap_cons,← countedNames,hrest,ArgumentEntry.counted,strays_text he,
      List.append_nil,List.filter_cons]
    split <;> rfl

/-- The names that a section counts as described, where its lines are written from entries: with line
feeds as the only line breaks, those of the entries that count; and those that are described, where also
the names are words and no colon is followed by whitespace alone. -/
theorem described_entries (hi : Text.isMargin indent = true) (es : List (ArgumentEntry indent)) (s : Section)
    (h : s.following = es.flatMap (·.lines)) :
    describedArguments s = .ok (countedNames es) ∧
      ((∀ e ∈ es, e.isFlat = true) → countedNames es =
        ((successors es).filter fun p => p.1.isCounted p.2.isNone).map fun p => p.1.name) ∧
      ((∀ e ∈ es, e.isFlat = true ∧ e.name.all Text.isWord = true ∧ e.leavesTrace = e.isDescribed) →
        countedNames es = (es.filter (·.isDescribed)).map (·.name)) := by
  refine ⟨describedArguments_entries hi es s h,countedNames_flat es,fun hplain => ?_⟩
  have hsame : ∀ p ∈ successors es, p.1.isCounted p.2.isNone = p.1.isDescribed := by
    intro p hp
    have hmem : p.1 ∈ es := by
      rw [← map_fst_successors es]
      exact List.mem_map_of_mem hp
    obtain ⟨-,hword,htrace⟩ := hplain p.1 hmem
    simp [ArgumentEntry.isCounted,hword,htrace]
  rw [countedNames_flat es fun e he => (hplain e he).1,List.filter_congr hsame]
  calc ((successors es).filter fun p => p.1.isDescribed).map (fun p => p.1.name)
      = (((successors es).map (·.1)).filter (·.isDescribed)).map (·.name) := by
        rw [List.filter_map,List.map_map]
        rfl
    _ = (es.filter (·.isDescribed)).map (·.name) := by rw [map_fst_successors]

end Whole

def plainEntry (indent name rest : Text) (below : List Text) (isName : Text.isIdentifier name = true)
    (isRest : '\n' ∉ rest) (isBelow : ∀ l ∈ below, '\n' ∉ l ∧ Text.isBlank l = true) : ArgumentEntry indent :=
  { name, isName, rest, isRest, below, gap := [], isGap := rfl, hint := none, isHint := by simp
    isBelow := fun l hl => ⟨(isBelow l hl).1,Or.inl (isBelow l hl).2⟩ }

def typedEntry : ArgumentEntry "  ".toList where
  name := "x"
  isName := rfl
  gap := " "
  isGap := rfl
  hint := some ("int", "\t".toList)
  isHint := by
    rintro t gap ⟨⟩
    refine ⟨rfl,?_⟩
    change ∀ c ∈ ['i', 'n', 't'], _
    simp only [List.forall_mem_cons]
    exact ⟨by decide,by decide,by decide,by simp⟩
  rest := []
  isRest := by simp
  below := ["", "\t", "   One."]
  isBelow := by
    simp only [List.forall_mem_cons]
    exact ⟨⟨by decide,Or.inl rfl⟩,⟨by decide,Or.inl rfl⟩,
      ⟨by decide,Or.inr ⟨' ',"One.".toList,rfl,rfl⟩⟩,by simp⟩

def mixedEntries : List (ArgumentEntry "  ".toList) :=
  [typedEntry, plainEntry _ "y" " " [] rfl (by decide) (by simp),
    plainEntry _ "z" " " ["   "] rfl (by decide) (by decide)]

def mixedSection : Section :=
  { name := "Args", previous := [], line := "Args:", index := 2, isLast := true
    following := ["  x (int)\t:", "", "\t", "   One.", "  y: ", "  z: ", "   "] }

theorem described_entries_mixed :
    mixedSection.following = mixedEntries.flatMap (·.lines) ∧ (∀ e ∈ mixedEntries, e.isFlat = true) ∧
      describedArguments mixedSection = .ok ["x".toList, "y".toList] := by
  have hlines : mixedSection.following = mixedEntries.flatMap (·.lines) := by rfl
  have hflat : ∀ e ∈ mixedEntries, e.isFlat = true := List.all_eq_true.mp rfl
  obtain ⟨hnames,hcounted,-⟩ := described_entries rfl mixedEntries mixedSection hlines
  rw [hcounted hflat] at hnames
  exact ⟨hlines,hflat,hnames⟩

/-- A blank behind the colon of one argument, and a description of the next one. -/
def blankEntries : List (ArgumentEntry "        ".toList) :=
  [plainEntry _ "x" " " [] rfl (by decide) (by simp),
    plainEntry _ "y" " Text." [""] rfl (by decide) (by decide)]

def blankSection : Section :=
  { name := "Args", previous := [], line := "    Args:", index := 2, isLast := true
    following := ["        x: ", "        y: Text.", ""] }

/-- An argument counts as described though nothing but a blank stands behind its colon. -/
theorem blank_counts_as_description :
    Section.sectionsOf? Section.googleNames
        (Text.splitOn '\n' "Do it.\n\n    Args:\n        x: \n        y: Text.\n\n    ") = some [blankSection] ∧
      blankSection.following = blankEntries.flatMap (·.lines) ∧
      describedArguments blankSection = .ok ["x".toList, "y".toList] ∧
      (blankEntries.filter (·.isDescribed)).map (·.name) = ["y".toList] := by
  refine ⟨?_,rfl,rfl,rfl⟩
  decide +kernel

end DocLint.Check.Sections
