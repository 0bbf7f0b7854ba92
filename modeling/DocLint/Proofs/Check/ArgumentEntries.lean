import DocLint.Proofs.Check.ArgumentDepth
import DocLint.Proofs.Text.Lines
import DocLint.Proofs.Text.Names

/-!
Entries of a list of arguments, one by one: how lines are put together to entries, and which argument
an entry describes.
-/

set_option autoImplicit false

namespace DocLint.Check.Sections

/-! ### Lines put together -/

def continues (line : Text) : Bool := (line.head?.map Text.isSpace).getD false

theorem addLine_eq (above : List Text) (line : Text) : addLine above line =
    if continues line then
      match above with
      | entry :: more => .ok ((entry ++ line) :: more)
      | [] => .error .noLine
    else .ok (line :: above) := rfl

section Grouping

variable {above a b ls x y : List Text} {e l : Text}

theorem foldlM_addLine_above (e : Text) (above ls : List Text) :
    ls.foldlM addLine (e :: above) = (ls.foldlM addLine [e]).map (· ++ above) := by
  induction ls generalizing e above with
  | nil => rfl
  | cons l ls ih =>
    simp only [List.foldlM_cons,addLine_eq]
    cases continues l with
    | true =>
      simp only [if_true,ok_bind]
      exact ih (e ++ l) above
    | false =>
      simp only [Bool.false_eq_true,if_false,ok_bind]
      rw [ih l (e :: above),ih l [e]]
      cases ls.foldlM addLine [l] with
      | error fault => rfl
      | ok found => simp [Except.map]

theorem foldlM_addLine_continued (h : ∀ l ∈ ls, continues l = true) :
    ls.foldlM addLine (e :: above) = .ok ((e ++ ls.flatten) :: above) := by
  induction ls generalizing e with
  | nil => simp [pure,Except.pure]
  | cons l ls ih =>
    obtain ⟨hl,hls⟩ := List.forall_mem_cons.mp h
    rw [List.foldlM_cons,addLine_eq,if_pos hl,ok_bind,ih hls,List.flatten_cons,List.append_assoc]

theorem entries_entry (hl : continues l = false) (h : ∀ l ∈ ls, continues l = true) :
    entries (l :: ls) = .ok [l ++ ls.flatten] := by
  rw [entries,List.foldlM_cons,addLine_eq,hl,if_neg Bool.false_ne_true,ok_bind,foldlM_addLine_continued h]
  rfl

theorem foldlM_of_entries (h : entries a = .ok x) : a.foldlM addLine [] = .ok x.reverse := by
  unfold entries at h
  cases hf : a.foldlM addLine [] with
  | error fault =>
    rw [hf] at h
    cases h
  | ok found =>
    rw [hf] at h
    cases h
    rw [List.reverse_reverse]

/-- Lines that begin with an entry of their own make the same entries behind other lines. -/
theorem entries_append (ha : entries a = .ok x) (hb : entries b = .ok y)
    (h : ∀ l, b.head? = some l → continues l = false) : entries (a ++ b) = .ok (x ++ y) := by
  have hy := foldlM_of_entries hb
  rw [entries,List.foldlM_append,foldlM_of_entries ha,ok_bind]
  cases b with
  | nil =>
    cases hb
    simp [pure,Except.pure,Except.map]
  | cons l ls =>
    rw [List.foldlM_cons,addLine_eq,h l rfl,if_neg Bool.false_ne_true,ok_bind] at hy ⊢
    rw [foldlM_addLine_above,hy]
    simp [Except.map]

theorem exists_entries (h : ∀ l, ls.head? = some l → continues l = false) :
    ∃ found, entries ls = .ok found := by
  cases ls with
  | nil => exact ⟨[],rfl⟩
  | cons l ls =>
    obtain ⟨found,hfound⟩ := @foldlM_addLine_ok ls l []
    rw [entries,List.foldlM_cons,addLine_eq,h l rfl,if_neg Bool.false_ne_true,ok_bind,hfound]
    exact ⟨_,rfl⟩

end Grouping

/-! ### What belongs to an entry -/

/-- The beginning of a text that belongs to the entry in which it stands: up to the first line that opens
another entry. -/
def ownPart (t : Text) : Text :=
  match t.splitLines with
  | [] => []
  | l :: ls => l ++ (ls.takeWhile continues).flatten

def strayLines (t : Text) : List Text := (t.splitLines.drop 1).dropWhile continues

def Hangs (t : Text) : Prop := ∀ a c b, t = a ++ '\n' :: c :: b → Text.isSpace c = true

section Own

variable {t u opening : Text} {c d : Char} {ls found : List Text}

theorem head_strayLines (t : Text) : ∀ l, (strayLines t).head? = some l → continues l = false := by
  intro l hl
  have hhead := List.head?_dropWhile_not continues (t.splitLines.drop 1)
  rw [strayLines] at hl
  rw [hl] at hhead
  exact hhead

/-- Behind the beginning of an entry, its own part and then the entries of the lines behind it. -/
theorem entries_opening (hc : Text.isSpace c = false) (hsolid : ∀ d ∈ c :: opening, Text.isLineBreak d = false)
    (h : entries (strayLines t) = .ok found) :
    entries (Text.splitLines (c :: opening ++ t)) = .ok ((c :: opening ++ ownPart t) :: found) := by
  have hopens (l : Text) : continues (c :: opening ++ l) = false := by simp [continues,hc]
  cases ht : t.splitLines with
  | nil =>
    obtain rfl : t = [] := by
      cases t with
      | nil => rfl
      | cons d t =>
        obtain ⟨l,ls,hl⟩ := Text.splitLines_cons d t
        simp [hl] at ht
    cases h
    rw [List.append_nil,Text.splitLines_solid hsolid (List.cons_ne_nil c opening)]
    simpa [ownPart,ht] using @entries_entry [] _ (hopens [])
  | cons l ls =>
    have hgroup := entries_entry (hopens l) (List.all_eq_true.mp (@List.all_takeWhile _ continues ls))
    have hsplit := entries_append hgroup h (head_strayLines t)
    rw [strayLines,ht,List.drop_one,List.tail_cons,List.cons_append,List.takeWhile_append_dropWhile] at hsplit
    rw [Text.splitLines_solid_append hsolid ht,hsplit,ownPart,ht]
    simp

theorem Hangs.tail (h : Hangs (c :: t)) : Hangs t := by
  rintro a d b rfl
  exact h (c :: a) d b rfl

theorem Hangs.continues_head (h : Hangs ('\n' :: t)) (hl : t.splitLines = u :: ls) : continues u = true := by
  cases t with
  | nil => cases hl
  | cons d t =>
    obtain ⟨l,ls',hsplit⟩ := Text.splitLines_cons d t
    rw [hsplit] at hl
    obtain ⟨rfl,rfl⟩ := List.cons.inj hl
    simpa [continues] using h [] d t rfl

theorem ownPart_feed (h : Hangs ('\n' :: t)) : ownPart ('\n' :: t) = '\n' :: ownPart t := by
  rw [ownPart,Text.splitLines_cons_feed,ownPart]
  cases ht : t.splitLines with
  | nil => rfl
  | cons l ls => simp [h.continues_head ht]

theorem strayLines_feed (h : Hangs ('\n' :: t)) : strayLines ('\n' :: t) = strayLines t := by
  rw [strayLines,Text.splitLines_cons_feed,strayLines]
  cases ht : t.splitLines with
  | nil => rfl
  | cons l ls => simp [h.continues_head ht]

theorem hasDescription_feed (t : Text) : hasDescription ('\n' :: t) = hasDescription t := by
  simp [hasDescription]

theorem hasDescription_cons (h : c ≠ '\n') : hasDescription (c :: t) = true := by
  simp [hasDescription,h]

theorem hasDescription_ownPart (h : Hangs t) : hasDescription (ownPart t) = hasDescription t := by
  induction t with
  | nil => rfl
  | cons c t ih =>
    by_cases hc : c = '\n'
    · subst hc
      rw [ownPart_feed h,hasDescription_feed,hasDescription_feed,ih h.tail]
    · obtain ⟨l,ls,hl⟩ := Text.splitLines_cons c t
      rw [ownPart,hl,hasDescription_cons hc]
      exact hasDescription_cons hc

theorem strayLines_plain (h : Text.isLineBreak c = false) : strayLines (c :: t) = strayLines t := by
  cases t with
  | nil => simp [strayLines,Text.splitLines,h]
  | cons d t =>
    obtain ⟨l,ls,hl⟩ := Text.splitLines_cons d t
    rw [strayLines,Text.splitLines_plain h hl,strayLines,hl]
    rfl

theorem strayLines_of_feeds (h : Hangs t) (hb : ∀ c ∈ t, Text.isLineBreak c = true → c = '\n') :
    strayLines t = [] := by
  induction t with
  | nil => rfl
  | cons c t ih =>
    obtain ⟨hc,ht⟩ := List.forall_mem_cons.mp hb
    have hrest := ih h.tail ht
    cases hbreak : Text.isLineBreak c with
    | true =>
      obtain rfl := hc hbreak
      rw [strayLines_feed h,hrest]
    | false => rw [strayLines_plain hbreak,hrest]

end Own

/-! ### What an entry describes -/

/-- An entry of a list of arguments at an indentation: a name, perhaps something in parentheses, a colon,
the rest of its line, and the lines below it that are blank or deeper. -/
structure ArgumentEntry (indent : Text) where
  name : Text
  isName : Text.isIdentifier name = true
  gap : Text
  isGap : Text.isMargin gap = true
  hint : Option (Text × Text)
  isHint : ∀ t gap, hint = some (t, gap) → Text.isMargin gap = true ∧
    ∀ c ∈ t, c ≠ '(' ∧ c ≠ ')' ∧ Text.isLineBreak c = false
  rest : Text
  isRest : '\n' ∉ rest
  below : List Text
  isBelow : ∀ l ∈ below, '\n' ∉ l ∧
    (Text.isBlank l = true ∨ ∃ c u, l = indent ++ c :: u ∧ Text.isSpace c = true)

namespace ArgumentEntry

variable {indent : Text} (e : ArgumentEntry indent)

def hinted : Text :=
  match e.hint with
  | none => []
  | some (t, gap) => '(' :: t ++ ')' :: gap

def opening : Text := e.name ++ (e.gap ++ (e.hinted ++ [':']))

def lines : List Text := (indent ++ (e.opening ++ e.rest)) :: e.below

def isDescribed : Bool := (e.rest :: e.below).any fun l => !Text.isBlank l

/-- Whether something follows the colon on its line, or a line below holds something else than blanks
and tabs. -/
def leavesTrace : Bool :=
  !e.rest.isEmpty || e.below.any fun l => indent.isPrefixOf l && !Text.isMargin l

end ArgumentEntry

section Describing

variable {indent t u gap : Text} {c : Char}

theorem isMarginChar_iff : Text.isMarginChar c = true ↔ c = ' ' ∨ c = '\t' := by simp [Text.isMarginChar]

theorem stripLeft_cons (hc : Text.isSpace c = false) : Text.stripLeft (c :: t) = c :: t := by
  simp [Text.stripLeft,hc]

theorem isSpace_of_mem_gap (hg : Text.isMargin gap = true) : ∀ d ∈ gap, Text.isSpace d = true := by
  intro d hd
  obtain rfl | rfl := isMarginChar_iff.mp (List.all_eq_true.mp hg d hd) <;> rfl

theorem stripLeft_gap (hg : Text.isMargin gap = true) (hc : Text.isSpace c = false) :
    Text.stripLeft (gap ++ c :: t) = c :: t := by
  rw [Text.stripLeft,List.dropWhile_append_of_pos (isSpace_of_mem_gap hg),← Text.stripLeft,stripLeft_cons hc]

theorem takeWhile_gap (hg : Text.isMargin gap = true) (hc : Text.isWord c = false) :
    (gap ++ c :: t).takeWhile Text.isWord = [] := by
  cases gap with
  | nil => simp [hc]
  | cons d gap =>
    have hd : Text.isWord d = false := by
      obtain rfl | rfl := isMarginChar_iff.mp (List.all_eq_true.mp hg d (by simp)) <;> rfl
    simp [hd]

theorem describes_colon (hg : Text.isMargin gap = true) : describes (gap ++ ':' :: t) = hasDescription t := by
  simp only [describes,stripLeft_gap hg (show Text.isSpace ':' = false by rfl)]

/-- Whether what follows a word has a colon with a description, perhaps behind parentheses. -/
def isDescription (rest : Text) : Bool :=
  match rest with
  | '(' :: inside => describesBehindParenthesis inside
  | _ => describes rest

theorem describedArgument_eq (entry : Text) : describedArgument? entry =
    let word := entry.stripLeft.takeWhile Text.isWord
    if !word.isEmpty && isDescription (Text.stripLeft (entry.stripLeft.drop word.length)) then some word
    else none := rfl

theorem isDescription_other (h : Text.IsInner c) : isDescription (c :: t) = false := by
  obtain ⟨hs,hopen,hcolon⟩ := h
  unfold isDescription
  split
  · rename_i heq
    exact absurd (List.cons.inj heq).1 hopen
  · rw [describes,stripLeft_cons hs]
    split
    · rename_i heq
      exact absurd (List.cons.inj heq).1 hcolon
    · rfl

theorem hasDescription_of_parenthesis (h : describesBehindParenthesis t = true) : hasDescription t = true := by
  cases t with
  | nil => cases h
  | cons c t =>
    by_cases hc : c = '\n'
    · simp [describesBehindParenthesis,hc] at h
    · exact hasDescription_cons hc

theorem describesBehindParenthesis_append (h : ∀ c ∈ t, c ≠ '\n' ∧ c ≠ ')') :
    describesBehindParenthesis (t ++ u) = describesBehindParenthesis u := by
  induction t with
  | nil => rfl
  | cons c t ih =>
    obtain ⟨⟨hfeed,hclose⟩,ht⟩ := List.forall_mem_cons.mp h
    simp [describesBehindParenthesis,hfeed,hclose,ih ht]

theorem describesBehindParenthesis_hint (ht : ∀ c ∈ t, c ≠ '\n' ∧ c ≠ ')') (hg : Text.isMargin gap = true) :
    describesBehindParenthesis (t ++ ')' :: (gap ++ ':' :: u)) = hasDescription u := by
  have hgap : ∀ c ∈ gap ++ [':'], c ≠ '\n' ∧ c ≠ ')' := by
    intro c hc
    rcases List.mem_append.mp hc with hc | hc
    · obtain rfl | rfl := isMarginChar_iff.mp (List.all_eq_true.mp hg c hc) <;> decide
    · rw [List.mem_singleton.mp hc]
      decide
  have hlater : describesBehindParenthesis (gap ++ ':' :: u) = describesBehindParenthesis u := by
    simpa using describesBehindParenthesis_append (u := u) hgap
  rw [describesBehindParenthesis_append ht,describesBehindParenthesis,hlater,describes_colon hg]
  cases hu : describesBehindParenthesis u with
  | false => simp
  | true => simp [hasDescription_of_parenthesis hu]

namespace ArgumentEntry

variable (e : ArgumentEntry indent)

theorem ne_feed_of_hint {t gap : Text} (h : e.hint = some (t, gap)) : ∀ c ∈ t, c ≠ '\n' ∧ c ≠ ')' := by
  intro c hc
  obtain ⟨-,hclose,hbreak⟩ := (e.isHint t gap h).2 c hc
  refine ⟨?_,hclose⟩
  rintro rfl
  cases hbreak

theorem exists_hinted (t : Text) : ∃ c u, e.hinted ++ ':' :: t = c :: u ∧ Text.isSpace c = false ∧
    Text.isWord c = false ∧ isDescription (c :: u) = hasDescription t := by
  cases h : e.hint with
  | none => exact ⟨':',t,by simp [hinted,h],rfl,rfl,@describes_colon t [] rfl⟩
  | some p =>
    obtain ⟨inside,gap⟩ := p
    refine ⟨'(',inside ++ ')' :: (gap ++ ':' :: t),by simp [hinted,h],rfl,rfl,?_⟩
    exact describesBehindParenthesis_hint (e.ne_feed_of_hint h) (e.isHint inside gap h).1

theorem exists_name : ∃ c cs, e.name = c :: cs ∧ Text.isSpace c = false := by
  obtain ⟨c,cs,hname⟩ := List.exists_cons_of_ne_nil (Text.ne_nil_of_isIdentifier e.isName)
  exact ⟨c,cs,hname,(Text.isInner_of_isIdentifier e.isName c (by simp [hname])).1⟩

theorem stripLeft_name (t : Text) : Text.stripLeft (e.name ++ t) = e.name ++ t := by
  obtain ⟨c,cs,hname,hc⟩ := e.exists_name
  rw [hname]
  exact stripLeft_cons hc

/-- An entry describes its name if that is a word and a description follows. -/
theorem describedArgument_opening (t : Text) : describedArgument? (e.opening ++ t) =
    if e.name.all Text.isWord && hasDescription t then some e.name else none := by
  obtain ⟨c,u,hhinted,hspace,hword,hdescribed⟩ := e.exists_hinted t
  have htext : e.opening ++ t = e.name ++ (e.gap ++ c :: u) := by simp [opening,← hhinted]
  rw [htext,describedArgument_eq,e.stripLeft_name]
  cases hall : e.name.all Text.isWord with
  | true =>
    have htake : (e.name ++ (e.gap ++ c :: u)).takeWhile Text.isWord = e.name := by
      rw [List.takeWhile_append_of_pos (List.all_eq_true.mp hall),takeWhile_gap e.isGap hword,List.append_nil]
    have hne : e.name.isEmpty = false := by simpa using Text.ne_nil_of_isIdentifier e.isName
    simp only [htake,hne,List.drop_left,stripLeft_gap e.isGap hspace,hdescribed,Bool.not_false,Bool.true_and]
  | false =>
    -- The word ends inside the name, before a character that is neither a colon nor a parenthesis.
    have hfind : (e.name.find? fun d => !Text.isWord d).isSome = true := by simpa using hall
    obtain ⟨d,hd⟩ := Option.isSome_iff_exists.mp hfind
    obtain ⟨hnot,w,ds,hname,hw⟩ := List.find?_eq_some_iff_append.mp hd
    have hinner := Text.isInner_of_isIdentifier e.isName d (by simp [hname])
    have htext : e.name ++ (e.gap ++ c :: u) = w ++ d :: (ds ++ (e.gap ++ c :: u)) := by simp [hname]
    have htake : (w ++ d :: (ds ++ (e.gap ++ c :: u))).takeWhile Text.isWord = w := by
      rw [List.takeWhile_append_of_pos (by simpa using hw),List.takeWhile_cons_of_neg (by simpa using hnot),
        List.append_nil]
    simp only [htext,htake,List.drop_left,stripLeft_cons hinner.1,isDescription_other hinner,Bool.and_false,
      Bool.false_and,Bool.false_eq_true,if_false]

end ArgumentEntry

end Describing

end DocLint.Check.Sections
