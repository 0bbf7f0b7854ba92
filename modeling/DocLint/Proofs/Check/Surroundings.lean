import Mathlib.Data.List.DropRight
import Mathlib.Data.List.Infix
import DocLint.Proofs.Answer
import DocLint.Proofs.Check.ReportOrder
import DocLint.Proofs.Token.Located
import DocLint.Resources.Builtin

/-!
Where a docstring is looked for. Its place in the text is known while the text is read; the checks look
for it again in the lines of its definition, without the blank lines and comments at their end. They find
it at its own place if its text does not occur before, and if something is left of its last line.
-/

set_option autoImplicit false

namespace DocLint

namespace Text

theorem cut?_eq_some_iff {sep t a b : Text} (hsep : sep ≠ []) :
    cut? sep t = some (a, b) ↔ t = a ++ sep ++ b ∧ ¬ sep <:+: (a ++ sep).dropLast := by
  induction t generalizing a with
  | nil => simp [cut?,hsep]
  | cons c cs ih =>
    have hlast {a : Text} : (c :: a ++ sep).dropLast = c :: (a ++ sep).dropLast := by
      rw [List.cons_append,List.dropLast_cons_of_ne_nil (by simp [hsep])]
    rw [cut?]
    split
    · rename_i hbegins
      obtain ⟨e,he⟩ := List.isPrefixOf_iff_prefix.mp hbegins
      rw [← he,List.drop_left,Option.some.injEq,Prod.mk.injEq]
      constructor
      · rintro ⟨rfl,rfl⟩
        refine ⟨rfl,fun hwithin => ?_⟩
        have hle := hwithin.length_le
        have hpos := List.length_pos_iff.mpr hsep
        rw [List.nil_append,List.length_dropLast] at hle
        omega
      · rintro ⟨heq,hfirst⟩
        cases a with
        | nil => exact ⟨rfl,by simpa using heq⟩
        | cons c' a =>
          refine absurd ?_ hfirst
          have hshort : sep <+: (c' :: a ++ sep).dropLast := by
            refine List.prefix_of_prefix_length_le (List.prefix_append sep e) ?_ (by simp)
            rw [heq]
            exact (List.dropLast_prefix _).trans (List.prefix_append _ _)
          exact hshort.isInfix
    · rename_i hbegins
      rw [List.isPrefixOf_iff_prefix] at hbegins
      rw [Option.map_eq_some_iff]
      constructor
      · rintro ⟨⟨a',b'⟩,hcut,heq⟩
        obtain ⟨rfl,rfl⟩ := Prod.mk.inj heq
        obtain ⟨rfl,hfirst⟩ := ih.mp hcut
        refine ⟨rfl,fun hwithin => ?_⟩
        rw [hlast,List.infix_cons_iff] at hwithin
        rcases hwithin with hwithin | hwithin
        · refine hbegins (hwithin.trans ?_)
          rw [← hlast]
          exact (List.dropLast_prefix _).trans (List.prefix_append _ _)
        · exact hfirst hwithin
      · rintro ⟨heq,hfirst⟩
        cases a with
        | nil => exact absurd ⟨b,heq.symm⟩ hbegins
        | cons c' a =>
          obtain ⟨rfl,rfl⟩ := List.cons.inj heq
          refine ⟨(a,b),ih.mpr ⟨rfl,fun hwithin => hfirst ?_⟩,rfl⟩
          rw [hlast]
          exact List.infix_cons hwithin

end Text

/-! ### Texts between positions -/

def textFrom (lines : List Text) (row : Nat) (p : Position) : Text :=
  ((lines.take (p.row - 1)).drop (row - 1)).flatten ++ (lines.getD (p.row - 1) []).take p.col

variable {lines : List Text} {start stop row : Nat} {p : Position} {text : Text} {t : Token}

theorem take_eq_append_drop {n k : Nat} (h : n ≤ k) (lines : List Text) :
    lines.take k = lines.take n ++ (lines.take k).drop n := by
  have hmin : min n k = n := Nat.min_eq_left h
  rw [← hmin,← List.take_take,hmin,List.take_append_drop]

theorem textBefore_append_textFrom (h : start ≤ p.row) :
    textBefore lines p = textBefore lines ⟨start, 0⟩ ++ textFrom lines start p := by
  rw [textBefore,take_eq_append_drop (Nat.sub_le_sub_right h 1) lines,List.flatten_append,List.append_assoc]
  simp [textBefore,textFrom]

theorem Located.row_le (h : Located lines t) (hk : t.kind = .string) : t.start.row ≤ t.stop.row := by
  obtain ⟨text,hline,-,-⟩ := h.closed hk
  obtain ⟨mark,q,rest,hvalue,-⟩ := h.quoted hk
  refine Nat.le_of_not_lt fun hlt => ?_
  -- Otherwise the text before its end would be no longer than the text before its beginning.
  have hstop : textBefore lines t.stop <+: textBefore lines ⟨t.stop.row + 1, 0⟩ := by
    rw [hline.textBefore_succ,hline.textBefore_end t.stop.col]
    exact List.prefix_append _ _
  have hstart : textBefore lines ⟨t.stop.row + 1, 0⟩ <+: textBefore lines t.start := by
    rw [textBefore_append_textFrom hlt]
    exact List.prefix_append _ _
  have hle := (hstop.trans hstart).length_le
  rw [h.text,hvalue] at hle
  simp only [List.length_append,List.length_cons] at hle
  omega

theorem Located.textFrom_stop (h : Located lines t) (hk : t.kind = .string) (hstart : start ≤ t.start.row) :
    textFrom lines start t.stop = textFrom lines start t.start ++ t.value := by
  have htext := h.text
  rw [textBefore_append_textFrom (Nat.le_trans hstart (h.row_le hk)),textBefore_append_textFrom hstart,
    List.append_assoc] at htext
  exact List.append_cancel_left htext

/-! ### Excerpts -/

theorem rdropWhile_append {α : Type} {p : α → Bool} (a b : List α) :
    (a ++ b).rdropWhile p = if b.all p then a.rdropWhile p else a ++ b.rdropWhile p := by
  have hempty : (b.reverse.dropWhile p).isEmpty = b.all p := by
    rw [Bool.eq_iff_iff,List.isEmpty_iff,List.all_eq_true,← List.rdropWhile_eq_nil_iff,List.rdropWhile,
      List.reverse_eq_nil_iff]
  rw [List.rdropWhile,List.reverse_append,List.dropWhile_append,hempty]
  split <;> simp [List.rdropWhile]

theorem prefix_flatten {a b : List Text} (h : a <+: b) : a.flatten <+: b.flatten := by
  obtain ⟨c,rfl⟩ := h
  rw [List.flatten_append]
  exact List.prefix_append _ _

/-- An excerpt reaches into a line if this line or one below it is neither blank nor a comment. -/
theorem excerpt_reaches (hline : LineAt lines row text) (hstart : start ≤ row)
    (hsome : ∃ l ∈ (lines.take stop).drop (row - 1), isBlankOrComment l = false) :
    ((lines.take (row - 1)).drop (start - 1)).flatten ++ text <+: excerpt lines start stop := by
  obtain ⟨l,hl,hnot⟩ := hsome
  have hlt : row - 1 < (lines.take stop).length := by
    rw [← Nat.sub_pos_iff_lt,← List.length_drop]
    exact List.length_pos_of_mem hl
  rw [List.length_take] at hlt
  have hsplit : (lines.take stop).drop (start - 1) =
      (lines.take (row - 1)).drop (start - 1) ++ (lines.take stop).drop (row - 1) := by
    rw [← List.drop_append_of_le_length (by rw [List.length_take]; omega),
      ← take_eq_append_drop (by omega)]
  have hall : ¬ ((lines.take stop).drop (row - 1)).all isBlankOrComment = true := by
    intro hall
    rw [List.all_eq_true.mp hall l hl] at hnot
    cases hnot
  have hexcerpt : excerpt lines start stop =
      (((lines.take stop).drop (start - 1)).rdropWhile isBlankOrComment).flatten := rfl
  rw [hexcerpt,hsplit,rdropWhile_append,if_neg hall]
  obtain ⟨rest,hrest⟩ := List.rdropWhile_prefix isBlankOrComment ((lines.take stop).drop (row - 1))
  cases hkept : ((lines.take stop).drop (row - 1)).rdropWhile isBlankOrComment with
  | nil => exact absurd (List.all_eq_true.mpr (List.rdropWhile_eq_nil_iff.mp hkept)) hall
  | cons first ls =>
    have hhead : ((lines.take stop).drop (row - 1))[0]? = some text := by
      rw [List.getElem?_drop,Nat.add_zero,List.getElem?_take_of_lt (by omega),hline.line]
    rw [hkept] at hrest
    rw [← hrest] at hhead
    obtain rfl : first = text := Option.some.inj hhead
    rw [List.flatten_append,List.flatten_cons,List.prefix_append_right_inj]
    exact List.prefix_append _ _

theorem excerpt_ends_above
    (hnone : ∀ l ∈ (lines.take stop).drop (row - 1), isBlankOrComment l = true) :
    excerpt lines start stop <+: ((lines.take (row - 1)).drop (start - 1)).flatten := by
  refine prefix_flatten ?_
  change ((lines.take stop).drop (start - 1)).rdropWhile isBlankOrComment <+: _
  by_cases hstop : row - 1 ≤ stop
  · rw [take_eq_append_drop hstop lines,List.drop_append,rdropWhile_append,if_pos]
    · exact List.rdropWhile_prefix _ _
    · exact List.all_eq_true.mpr fun l hl => hnone l (List.mem_of_mem_drop hl)
  · have htake : lines.take stop <+: lines.take (row - 1) := List.take_prefix_take_left (by omega)
    exact (List.rdropWhile_prefix _ _).trans (htake.drop _)

theorem textFrom_prefix_excerpt_iff (hline : LineAt lines p.row text) (hpos : 0 < p.col)
    (hcol : p.col ≤ text.length) (hstart : start ≤ p.row) :
    textFrom lines start p <+: excerpt lines start stop ↔
      ∃ l ∈ (lines.take stop).drop (p.row - 1), isBlankOrComment l = false := by
  have htext : textFrom lines start p =
      ((lines.take (p.row - 1)).drop (start - 1)).flatten ++ text.take p.col := by
    simp [textFrom,hline.line]
  constructor
  · intro hbegins
    by_contra hnone
    have hall : ∀ l ∈ (lines.take stop).drop (p.row - 1), isBlankOrComment l = true := by
      simpa using hnone
    have hle := (hbegins.trans (excerpt_ends_above hall)).length_le
    rw [htext,List.length_append,List.length_take] at hle
    omega
  · intro hsome
    refine List.IsPrefix.trans ?_ (excerpt_reaches hline hstart hsome)
    rw [htext,List.prefix_append_right_inj]
    exact List.take_prefix _ _

/-- The docstring's text is found at its own place if it does not occur before, and if something is left
of its last line. -/
theorem cut?_excerpt_iff (h : Located lines t) (hk : t.kind = .string) (hstart : start ≤ t.start.row) :
    (∃ after, Text.cut? t.value (excerpt lines start stop) = some (textFrom lines start t.start, after)) ↔
      (∃ l ∈ (lines.take stop).drop (t.stop.row - 1), isBlankOrComment l = false) ∧
      ¬ t.value <:+: (textFrom lines start t.start ++ t.value).dropLast := by
  obtain ⟨mark,q,rest,hvalue,-⟩ := h.quoted hk
  obtain ⟨text,hline,hpos,hcol⟩ := h.closed hk
  have hne : t.value ≠ [] := by simp [hvalue]
  simp only [Text.cut?_eq_some_iff hne]
  rw [← textFrom_prefix_excerpt_iff hline hpos hcol (Nat.le_trans hstart (h.row_le hk)),
    h.textFrom_stop hk hstart]
  constructor
  · rintro ⟨after,heq,hfirst⟩
    exact ⟨⟨after,heq.symm⟩,hfirst⟩
  · rintro ⟨⟨after,heq⟩,hfirst⟩
    exact ⟨after,heq.symm,hfirst⟩

/-! ### Where docstrings stand -/

open Outline

variable {ts : List Token} {n m i : Nat}

inductive Subject.DocumentedAt (ts : List Token) (i : Nat) : Subject → Prop
  | module {m : Module} (start : m.start = rowAt ts 0) (fillers : Through ts 0 i (isFiller · = true)) :
      DocumentedAt ts i (.module m)
  | block {m : Module} {ancestors : List Definition} {d : Definition} {n c j : Nat} (header : Headed ts n c)
      (start : d.start = rowAt ts n) (hj : c < j) (opening : Through ts (c + 1) j (·.kind ≠ .indent))
      (indent : ∃ t, ts[j]? = some t ∧ t.kind = .indent) (hi : j < i)
      (fillers : Through ts (j + 1) i (isFiller · = true)) : DocumentedAt ts i (.definition m ancestors d)
  | oneLine {m : Module} {ancestors : List Definition} {d : Definition} {n c : Nat} (header : Headed ts n c)
      (start : d.start = rowAt ts n) (first : ∃ t, ts[c + 1]? = some t ∧ t.kind ≠ .newline ∧ t.kind ≠ .comment)
      (hi : c < i) (fillers : Through ts (c + 1) i (isFiller · = true)) :
      DocumentedAt ts i (.definition m ancestors d)

theorem Subject.DocumentedAt.start_le {s : Subject} (hrows : RowsAscend ts) (h : s.DocumentedAt ts i) :
    s.start ≤ rowAt ts i := by
  cases h with
  | module start _ => exact Nat.le_trans (Nat.le_of_eq start) (hrows.rowAt_mono (Nat.zero_le i))
  | block header start hj _ _ hi _ =>
    have hle := header.signed.le
    exact Nat.le_trans (Nat.le_of_eq start) (hrows.rowAt_mono (by omega))
  | oneLine header start _ hi _ =>
    have hle := header.signed.le
    exact Nat.le_trans (Nat.le_of_eq start) (hrows.rowAt_mono (by omega))

/-- A token at a place which the docstring of a subject is read from. -/
structure Subject.DocstringToken (ts : List Token) (s : Subject) (d : Docstring) (i : Nat) (t : Token) :
    Prop where
  token : ts[i]? = some t
  place : s.DocumentedAt ts i
  isString : t.kind = .string
  docstring : d = ⟨t.value, t.start.row, t.stop.row⟩

theorem docstringToken_of_documented {s : Subject} {d : Docstring} {k : Nat}
    (h : Documented ts k m s.docstring) (hd : s.docstring = some d)
    (hplace : ∀ i, k ≤ i → Through ts k i (isFiller · = true) → s.DocumentedAt ts i) :
    ∃ i t, s.DocstringToken ts d i t := by
  obtain ⟨i,t,hi,hfillers,ht,-,hdoc,-⟩ := h
  rw [hd,docstringOf] at hdoc
  split at hdoc
  · rename_i hk
    exact ⟨i,t,ht,hplace i hi hfillers,hk,Option.some.inj hdoc⟩
  · cases hdoc

/-- Every definition that is gathered has its docstring from the token at this place. -/
theorem Outline.Gathers.docstringToken {ds : List Definition} (h : Gathers ts n ds m) (module : Module)
    (ancestors : List Definition) : ∀ s ∈ childSubjects module ancestors ds, ∀ d, s.docstring = some d →
      ∃ i t, s.DocstringToken ts d i t := by
  induction h generalizing ancestors with
  | ended _ => simp [childSubjects]
  | dedent _ => simp [childSubjects]
  | passing _ _ ih => exact ih ancestors
  | block _ _ _ ih₁ ih₂ =>
    intro s hs
    rw [childSubjects_append] at hs
    rcases List.mem_append.mp hs with hs | hs
    · exact ih₁ ancestors s hs
    · exact ih₂ ancestors s hs
  | definition header hj opening indent documented _ start _ _ ih₁ ih₂ =>
    intro s hs d hd
    rw [childSubjects,Definition.subjects_eq] at hs
    rcases List.mem_append.mp hs with hs | hs
    · rcases List.mem_cons.mp hs with rfl | hs
      · exact docstringToken_of_documented documented hd fun i hi hfillers =>
          .block header start hj opening indent hi hfillers
      · exact ih₁ _ s hs d hd
    · exact ih₂ ancestors s hs d hd
  | oneLine header first documented _ children start _ _ ih =>
    intro s hs d hd
    rw [childSubjects,Definition.subjects_eq,children] at hs
    rcases List.mem_append.mp hs with hs | hs
    · obtain rfl : s = _ := by simpa [childSubjects] using hs
      exact docstringToken_of_documented documented hd fun i hi hfillers =>
        .oneLine header start first hi hfillers
    · exact ih ancestors s hs d hd

theorem Outline.Parted.docstringToken {module : Module} {j l : Nat}
    (h : Parted ts module.start module.docstring module.children j l m) :
    ∀ s ∈ module.subjects, ∀ d, s.docstring = some d → ∃ i t, s.DocstringToken ts d i t := by
  intro s hs d hd
  rcases List.mem_cons.mp hs with rfl | hs
  · exact docstringToken_of_documented h.documented hd fun i _ hfillers =>
      .module h.start (h.fillers.append hfillers)
  · exact h.children.docstringToken module [] s hs d hd

/-! ### Surroundings -/

open Check.Layout

def Subject.SplitsBehind (s : Subject) (d : Docstring) (before : Text) : Prop :=
  (surroundings s d).before = before ∧
    s.source = (surroundings s d).before ++ d.text ++ (surroundings s d).after

theorem Subject.splitsBehind_iff {s : Subject} {d : Docstring} {before : Text} (hd : d.text ≠ []) :
    s.SplitsBehind d before ↔ ∃ after, Text.cut? d.text s.source = some (before, after) := by
  unfold SplitsBehind surroundings Text.cut
  cases hcut : Text.cut? d.text s.source with
  | none => simp [hd]
  | some found =>
    obtain ⟨a,b⟩ := found
    have hsource := ((Text.cut?_eq_some_iff hd).mp hcut).1
    simp [hsource]

theorem Subject.source_prefix {s : Subject} {source : Text} (h : s.root.source = source.lines) :
    textBefore source.lines ⟨s.start, 0⟩ ++ s.source <+: source := by
  have hkept : (((source.lines.take s.stop).drop (s.start - 1)).rdropWhile isBlankOrComment) <+:
      source.lines.drop (s.start - 1) :=
    (List.rdropWhile_prefix _ _).trans ((List.take_prefix _ _).drop _)
  have hsource : s.source <+: (source.lines.drop (s.start - 1)).flatten := by
    rw [Subject.source,h]
    exact prefix_flatten hkept
  have hlines : source = textBefore source.lines ⟨s.start, 0⟩ ++ (source.lines.drop (s.start - 1)).flatten := by
    conv_lhs => rw [← Text.flatten_lines source,← List.take_append_drop (s.start - 1) source.lines]
    rw [List.flatten_append]
    simp [textBefore]
  conv_rhs => rw [hlines]
  rwa [List.prefix_append_right_inj]

theorem Outline.module_source [Resources] {name : Text} {source : List Text} {s s' : State} {module : Module}
    (h : Outline.module name source s = .ok module s') : module.source = source := by
  rw [module_run] at h
  split at h
  · cases h
  · split at h
    · cases h
      rfl
    · cases h

theorem Subject.docstring_located [Resources] {file source : Text} {m : Module} {s : Subject} {d : Docstring}
    (hm : Module.ofText file source = .ok m) (hs : s ∈ m.subjects) (hd : s.docstring = some d) :
    s.root.source = source.lines ∧ ∃ i t, s.DocstringToken (Scan.ofText source).tokens d i t ∧
      Located source.lines t ∧ s.start ≤ t.start.row := by
  obtain ⟨st,st',hat,hrun⟩ := Module.run_of_ofText hm
  obtain ⟨_,-,-,-,j,l,hparts⟩ := (module_moves file source.lines).ok hat hrun
  obtain ⟨i,t,htoken⟩ := hparts.docstringToken s hs d hd
  refine ⟨by rw [Module.root_of_mem hs,module_source hrun],i,t,htoken,
    Scan.located_ofText source t (List.mem_of_getElem? htoken.token),?_⟩
  rw [← rowAt_of_getElem? htoken.token]
  exact htoken.place.start_le (Scan.ofText_rows source)

/-- A docstring is found at its own place if and only if the text from the first line of its definition up
to its end holds it nowhere else, and the last line of the docstring or one below it in the definition is
neither blank nor like a comment. Then what follows it is found too. -/
theorem docstring_found_iff [Resources] {file source : Text} {m : Module} {s : Subject} {d : Docstring}
    (hm : Module.ofText file source = .ok m) (hs : s ∈ m.subjects) (hd : s.docstring = some d) :
    ∃ i t, s.DocstringToken (Scan.ofText source).tokens d i t ∧
      textBefore source.lines t.start =
        textBefore source.lines ⟨s.start, 0⟩ ++ textFrom source.lines s.start t.start ∧
      textBefore source.lines t.stop = textBefore source.lines t.start ++ d.text ∧
      (s.SplitsBehind d (textFrom source.lines s.start t.start) ↔
        (∃ l ∈ (source.lines.take s.stop).drop (d.stop - 1), isBlankOrComment l = false) ∧
        ¬ d.text <:+: (textFrom source.lines s.start t.start ++ d.text).dropLast) ∧
      (s.SplitsBehind d (textFrom source.lines s.start t.start) →
        textBefore source.lines t.stop ++ (surroundings s d).after <+: source) := by
  obtain ⟨st,st',hat,hrun⟩ := Module.run_of_ofText hm
  obtain ⟨_,-,-,-,j,l,hparts⟩ := (module_moves file source.lines).ok hat hrun
  obtain ⟨i,t,htoken⟩ := hparts.docstringToken s hs d hd
  have hsource : s.root.source = source.lines := by rw [Module.root_of_mem hs,module_source hrun]
  have hlocated := Scan.located_ofText source t (List.mem_of_getElem? htoken.token)
  have hstart : s.start ≤ t.start.row := by
    rw [← rowAt_of_getElem? htoken.token]
    exact htoken.place.start_le (Scan.ofText_rows source)
  obtain rfl := htoken.docstring
  have hne : t.value ≠ [] := by
    obtain ⟨mark,q,rest,hvalue,-⟩ := hlocated.quoted htoken.isString
    simp [hvalue]
  have hbefore : textBefore source.lines t.start = _ := textBefore_append_textFrom hstart
  refine ⟨i,t,htoken,hbefore,hlocated.text,?_,fun hsplits => ?_⟩
  · rw [Subject.splitsBehind_iff hne,← cut?_excerpt_iff hlocated htoken.isString hstart,Subject.source,hsource]
  · have hbegins := Subject.source_prefix hsource
    rw [hsplits.2,hsplits.1,List.append_assoc,← List.append_assoc,← hbefore,← List.append_assoc] at hbegins
    rw [hlocated.text]
    exact hbegins

/-- A function with a blank line before its docstring and a comment behind its body. -/
def spaced : Text := "def f():\n\n    \"\"\"Doc.\"\"\"\n    pass\n# end\n"

open Resources.Builtin

theorem docstring_found_iff_spaced : ∃ m s d i t, Module.ofText "a.py" spaced = .ok m ∧ s ∈ m.subjects ∧
    s.docstring = some d ∧ s.DocstringToken (Scan.ofText spaced).tokens d i t ∧
    s.source = "def f():\n\n    ".toList ++ d.text ++ (surroundings s d).after ∧
    (surroundings s d).blanksBefore = 1 := by
  have hrun : ((Module.ofText "a.py" spaced).toOption.any fun m => m.subjects.any fun s =>
      s.docstring == some ⟨"\"\"\"Doc.\"\"\"", 3, 3⟩ && s.start == 1 && s.stop == 5) = true := by
    decide +kernel
  have hplace : ((Scan.ofText spaced).tokens.all fun t => t.kind != .string || t.start == ⟨3, 4⟩) = true := by
    decide +kernel
  obtain ⟨m,hm,hrun⟩ := exists_of_any hrun
  rw [List.any_eq_true] at hrun
  obtain ⟨s,hs,htest⟩ := hrun
  simp only [Bool.and_eq_true,beq_iff_eq] at htest
  obtain ⟨⟨hd,hstart⟩,hstop⟩ := htest
  obtain ⟨i,t,htoken,-,-,hiff,-⟩ := docstring_found_iff hm hs hd
  have ht : t.start = ⟨3, 4⟩ := by
    have h := List.all_eq_true.mp hplace t (List.mem_of_getElem? htoken.token)
    simpa [htoken.isString] using h
  have hbefore : textFrom spaced.lines 1 ⟨3, 4⟩ = "def f():\n\n    ".toList := by decide +kernel
  rw [hstart,hstop,ht,hbefore] at hiff
  have hsplits := hiff.mpr ⟨by decide +kernel,by decide +kernel⟩
  refine ⟨m,s,_,i,t,hm,hs,hd,htoken,hsplits.1 ▸ hsplits.2,?_⟩
  rw [Surroundings.blanksBefore,hsplits.1]
  decide +kernel

def doubled : Text := "def f(x=\"\"\"Doc.\"\"\"):\n\n    \"\"\"Doc.\"\"\"\n"

theorem doubled_mistaken : ∃ m s d, Module.ofText "a.py" doubled = .ok m ∧ s ∈ m.subjects ∧
    s.docstring = some d ∧ d.start = 3 ∧ (surroundings s d).before = "def f(x=".toList ∧
    functionBlanks s d = [Rule.D202.count 1] := by
  have hrun : ((Module.ofText "a.py" doubled).toOption.any fun m => m.subjects.any fun s =>
      s.docstring.any fun d => d.start == 3 && (surroundings s d).before == "def f(x=".toList &&
        functionBlanks s d == [Rule.D202.count 1]) = true := by
    decide +kernel
  obtain ⟨m,hm,hrun⟩ := exists_of_any hrun
  rw [List.any_eq_true] at hrun
  obtain ⟨s,hs,htest⟩ := hrun
  obtain ⟨d,hd,htest⟩ := (Option.any_eq_true _ _).mp htest
  simp only [Bool.and_eq_true,beq_iff_eq] at htest
  obtain ⟨⟨hstart,hbefore⟩,hfound⟩ := htest
  exact ⟨m,s,d,hm,hs,hd,hstart,hbefore,hfound⟩

end DocLint
