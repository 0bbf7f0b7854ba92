import DocLint.Proofs.Answer
import DocLint.Proofs.Check.Surroundings
import DocLint.Proofs.Text.Lines
import DocLint.Resources.Builtin

/-!
The lines that a report shows. They are numbered from the line on which their definition begins, but they
are counted anew, and at every line break: behind one within a line, the numbers are no longer those of the
text. The mark for lines that are left out stands behind every seventh row.
-/

set_option autoImplicit false

namespace DocLint

/-- Rows with their numbers, which are written in one width, and perhaps a mark behind them. -/
structure Excerpt where
  rows : List (Nat × Text)
  width : Nat
  marked : Bool
  deriving DecidableEq, Repr

namespace Excerpt

def label (e : Excerpt) (n : Nat) : Text := Text.padLeft e.width (Text.ofNat n)

def render (e : Excerpt) : Text :=
  (e.rows.flatMap fun r => e.label r.1 ++ ": ".toList ++ r.2) ++
    if e.marked then "        ...\n".toList else []

/-- The lines of a text, at whatever line break, without the blank ones at the end. -/
def pieces (source : Text) : List Text := source.splitLines.rdropWhile Text.isBlank

def of (source : Text) (start : Nat) : Excerpt where
  rows := ((pieces source).take 7).zipIdx.map fun (line, i) => (start + i, line)
  width := (Text.ofNat (start + (pieces source).length)).length
  marked := 6 < (pieces source).length

def text (e : Excerpt) : Text := (e.rows.map (·.2)).flatten

/-- Rows are numbered from the beginning of a subject on, all in the same width, and are not too many. -/
structure Ordered (e : Excerpt) (s : Subject) : Prop where
  numbers : e.rows.map (·.1) = List.range' s.start e.rows.length
  widths : ∀ r ∈ e.rows, (e.label r.1).length = e.width
  atMost : e.rows.length ≤ 7

/-- Every row shows the line that has its number, and the mark stands for lines of the subject that are
left out. -/
structure Truthful (e : Excerpt) (source : Text) (s : Subject) : Prop where
  lines : ∀ r ∈ e.rows, source.lines[r.1 - 1]? = some r.2
  mark : e.marked = true ↔ e.rows.length < s.source.lines.length

end Excerpt

def Violation.excerpt (v : Violation) : Excerpt := .of v.subject.source v.subject.start

theorem numberedLines_eq (source : Text) (start : Nat) :
    numberedLines source start = (Excerpt.of source start).render := by
  unfold numberedLines Excerpt.render
  refine congrArg₂ (· ++ ·) ?_ ?_
  · rw [Excerpt.of,List.flatMap_map]
    rfl
  · simp only [Excerpt.of,decide_eq_true_eq]
    rfl

/-! ### Labels -/

theorem Text.length_ofNat_le {a b : Nat} (h : a ≤ b) : (Text.ofNat a).length ≤ (Text.ofNat b).length := by
  have hpos : 0 < (Nat.toDigits 10 b).length := Nat.length_toDigits_pos
  rw [Text.ofNat,Text.ofNat,Nat.length_toDigits_le_iff (by decide) hpos]
  exact Nat.lt_of_le_of_lt h ((Nat.length_toDigits_le_iff (by decide) hpos).mp (Nat.le_refl _))

theorem Text.length_padLeft {width : Nat} {t : Text} (h : t.length ≤ width) :
    (Text.padLeft width t).length = width := by
  simp [Text.padLeft,Nat.sub_add_cancel h]

namespace Excerpt

theorem length_rows (source : Text) (start : Nat) :
    (of source start).rows.length = min 7 (pieces source).length := by
  simp [of]

theorem marked_iff (source : Text) (start : Nat) :
    (of source start).marked = true ↔ (of source start).rows.length = 7 := by
  rw [length_rows]
  simp only [of,decide_eq_true_eq]
  omega

theorem mem_rows {source : Text} {start : Nat} {r : Nat × Text} : r ∈ (of source start).rows ↔
    ∃ i, i < 7 ∧ (pieces source)[i]? = some r.2 ∧ r.1 = start + i := by
  obtain ⟨n,p⟩ := r
  simp only [of,List.mem_map,Prod.exists,List.mk_mem_zipIdx_iff_getElem?,List.getElem?_take,Prod.mk.injEq,
    Option.ite_none_right_eq_some]
  constructor
  · rintro ⟨_,i,⟨hi,hp⟩,rfl,rfl⟩
    exact ⟨i,hi,hp,rfl⟩
  · rintro ⟨i,hi,hp,rfl⟩
    exact ⟨p,i,⟨hi,hp⟩,rfl,rfl⟩

theorem of_ordered (s : Subject) : (of s.source s.start).Ordered s := by
  refine ⟨?_,fun r hr => ?_,?_⟩
  · have hnumbers (ls : List Text) (start : Nat) :
        (ls.zipIdx.map fun (line, i) => (start + i, line)).map (·.1) = List.range' start ls.length := by
      rw [List.map_map,← Nat.add_zero start,← List.map_add_range',← List.zipIdx_map_snd 0 ls,List.map_map]
      rfl
    simpa [of] using hnumbers ((pieces s.source).take 7) s.start
  · obtain ⟨i,hi,hp,hr⟩ := mem_rows.mp hr
    obtain ⟨hlt,-⟩ := List.getElem?_eq_some_iff.mp hp
    refine Text.length_padLeft (Text.length_ofNat_le ?_)
    omega
  · rw [length_rows]
    exact Nat.min_le_left 7 _

/-! ### Rows and lines -/

variable {source : Text} {A B ls : List Text} {l : Text}

def Ends (ls : List Text) : Prop := ∀ h : ls ≠ [], (ls.getLast h).isBlank = false

theorem exists_piece (h : l.isBlank = false) : ∃ p ∈ l.splitLines, p.isBlank = false := by
  by_contra hnone
  have hall : ∀ p ∈ l.splitLines, p.isBlank = true := by simpa using hnone
  have hblank : l.isBlank = true := by
    refine (Text.isBlank_iff l).mpr fun c hc => ?_
    rw [← Text.flatten_splitLines l] at hc
    obtain ⟨p,hp,hc⟩ := List.mem_flatten.mp hc
    exact (Text.isBlank_iff p).mp (hall p hp) c hc
  rw [h] at hblank
  cases hblank

theorem not_all_blank (hends : Ends (A ++ B)) (hB : B ≠ []) :
    ¬ (B.flatMap Text.splitLines).all Text.isBlank = true := by
  have hlast : (B.getLast hB).isBlank = false := by
    rw [← List.getLast_append_of_ne_nil (by simp [hB]) hB]
    exact hends _
  obtain ⟨p,hp,hblank⟩ := exists_piece hlast
  intro hall
  have hp := List.all_eq_true.mp hall p (List.mem_flatMap.mpr ⟨_,List.getLast_mem hB,hp⟩)
  rw [hblank] at hp
  cases hp

theorem pieces_append (hlined : Text.Lined (A ++ B)) (hends : Ends (A ++ B))
    (hA : ∀ l ∈ A, l.Unbroken) :
    pieces (A ++ B).flatten = A ++ (B.flatMap Text.splitLines).rdropWhile Text.isBlank := by
  have hsplit : A.flatMap Text.splitLines = A := by
    refine (List.flatMap_congr (g := fun l => [l]) fun l hl => ?_).trans (List.flatMap_singleton' A)
    exact (Text.splitLines_eq_self_iff (hlined.ne_nil (List.mem_append_left B hl))).mpr (hA l hl)
  rw [pieces,hlined.splitLines_flatten,List.flatMap_append,hsplit]
  by_cases hB : B = []
  · subst hB
    rw [List.append_nil] at hends
    have hkeep : A.rdropWhile Text.isBlank = A := by
      refine List.rdropWhile_eq_self_iff.mpr fun hne => ?_
      rw [hends hne]
      exact Bool.false_ne_true
    simp [hkeep]
  · rw [rdropWhile_append,if_neg (not_all_blank hends hB)]

theorem pieces_append_cons {c : Char} (hlined : Text.Lined (A ++ (c :: l) :: B))
    (hends : Ends (A ++ (c :: l) :: B)) (hA : ∀ l ∈ A, l.Unbroken) :
    ∃ p ps, Text.splitLines (c :: l) = p :: ps ∧
      (pieces (A ++ (c :: l) :: B).flatten)[A.length]? = some p := by
  obtain ⟨p,ps,hp⟩ := Text.splitLines_cons c l
  refine ⟨_,ps,hp,?_⟩
  have hnot := not_all_blank hends (List.cons_ne_nil _ B)
  rw [pieces_append hlined hends hA,List.getElem?_append_right (Nat.le_refl _),Nat.sub_self]
  rw [List.flatMap_cons,hp,List.cons_append] at hnot ⊢
  obtain ⟨rest,hrest⟩ := List.rdropWhile_prefix Text.isBlank (((c :: p) :: (ps ++ B.flatMap Text.splitLines)))
  cases hkept : ((c :: p) :: (ps ++ B.flatMap Text.splitLines)).rdropWhile Text.isBlank with
  | nil => exact absurd (List.all_eq_true.mpr (List.rdropWhile_eq_nil_iff.mp hkept)) hnot
  | cons first kept =>
    rw [hkept] at hrest
    exact congrArg some (List.cons.inj hrest).1

/-- Where every row shows the line of its number, no line break stands within the lines that are shown:
row by row, the line above being whole. -/
theorem unbroken_of_pieces (hlined : Text.Lined ls) (hends : Ends ls)
    (hrows : ∀ i p, i < 7 → (pieces ls.flatten)[i]? = some p → i < ls.length → ls[i]? = some p) (n : Nat)
    (hn : n ≤ 7) : ∀ l ∈ ls.take n, l.Unbroken := by
  induction n with
  | zero => simp
  | succ n ih =>
    have ih := ih (Nat.le_of_succ_le hn)
    cases hdrop : ls.drop n with
    | nil =>
      rw [List.take_of_length_le (Nat.le_succ_of_le (List.drop_eq_nil_iff.mp hdrop)),
        ← List.take_of_length_le (List.drop_eq_nil_iff.mp hdrop)]
      exact ih
    | cons l rest =>
      have hsplit : ls.take n ++ l :: rest = ls := by rw [← hdrop,List.take_append_drop]
      have hlt : n < ls.length := by
        rw [← Nat.sub_pos_iff_lt,← List.length_drop,hdrop]
        simp
      have hlength : (ls.take n).length = n := List.length_take_of_le (Nat.le_of_lt hlt)
      have hget : ls[n]? = some l := by
        rw [← hsplit]
        simp [hlength]
      rw [List.take_add_one,hget]
      refine List.forall_mem_append.mpr ⟨ih,List.forall_mem_singleton.mpr ?_⟩
      cases l with
      | nil => exact absurd rfl (hlined.ne_nil (List.mem_of_getElem? hget))
      | cons c l =>
        obtain ⟨p,ps,hp,hrow⟩ := pieces_append_cons (hsplit.symm ▸ hlined) (hsplit.symm ▸ hends) ih
        rw [hsplit,hlength] at hrow
        obtain rfl : c :: l = p := by simpa [hget] using hrows n p hn hrow hlt
        exact Text.unbroken_of_splitLines hp

theorem pieces_of_unbroken (hlined : Text.Lined ls) (hends : Ends ls) (h : ∀ l ∈ ls.take 7, l.Unbroken) :
    (pieces ls.flatten).take 7 = ls.take 7 ∧ min 7 (pieces ls.flatten).length = min 7 ls.length := by
  have hsplit := List.take_append_drop 7 ls
  have hpieces := pieces_append (hsplit.symm ▸ hlined) (hsplit.symm ▸ hends) h
  rw [hsplit] at hpieces
  by_cases hle : 7 ≤ ls.length
  · have hlength : (ls.take 7).length = 7 := List.length_take_of_le hle
    rw [hpieces,List.take_append_of_le_length (Nat.le_of_eq hlength.symm),List.take_take]
    refine ⟨rfl,?_⟩
    rw [List.length_append,hlength]
    omega
  · have hle : ls.length ≤ 7 := Nat.le_of_not_le hle
    have hall : pieces ls.flatten = ls := by
      rw [hpieces,List.drop_of_length_le hle,List.take_of_length_le hle]
      simp
    rw [hall]
    exact ⟨rfl,rfl⟩

/-- The rows are the beginning of the text, and nothing but blanks is left out without a mark. -/
theorem exists_rest (source : Text) (start : Nat) : ∃ rest, (of source start).text ++ rest = source ∧
    (rest.isBlank = false → (of source start).marked = true) := by
  let blanks : List Text := source.splitLines.rtakeWhile Text.isBlank
  have htext : (of source start).text = ((pieces source).take 7).flatten := by
    simp [text,of,Function.comp_def]
  refine ⟨((pieces source).drop 7).flatten ++ blanks.flatten,?_,fun hrest => ?_⟩
  · rw [htext,← List.append_assoc,← List.flatten_append,List.take_append_drop,← List.flatten_append]
    exact (congrArg List.flatten List.rdropWhile_append_rtakeWhile).trans (Text.flatten_splitLines source)
  · refine decide_eq_true (Nat.lt_of_not_le fun hle => ?_)
    have hblank : Text.isBlank blanks.flatten = true := by
      refine (Text.isBlank_iff _).mpr fun c hc => ?_
      obtain ⟨p,hp,hc⟩ := List.mem_flatten.mp hc
      exact (Text.isBlank_iff p).mp (List.mem_rtakeWhile_imp hp) c hc
    rw [List.drop_of_length_le (Nat.le_succ_of_le hle),List.flatten_nil,List.nil_append,hblank] at hrest
    cases hrest

/-! ### Subjects and their lines -/

theorem kept_prefix (lines : List Text) (start stop : Nat) :
    ((lines.take stop).drop (start - 1)).rdropWhile isBlankOrComment <+: lines.drop (start - 1) :=
  (List.rdropWhile_prefix _ _).trans ((List.take_prefix _ _).drop _)

theorem excerpt_lines (source : Text) (start stop : Nat) : (excerpt source.lines start stop).lines =
    ((source.lines.take stop).drop (start - 1)).rdropWhile isBlankOrComment := by
  refine Text.Lined.lines_flatten ?_
  obtain ⟨rest,hrest⟩ := kept_prefix source.lines start stop
  have hlined := Text.lined_lines source
  rw [← List.take_append_drop (start - 1) source.lines,← hrest] at hlined
  exact hlined.of_append.2.of_append.1

theorem isBlank_of_isBlankOrComment (h : isBlankOrComment l = false) : l.isBlank = false := by
  rw [isBlankOrComment,Bool.or_eq_false_iff] at h
  exact h.1

theorem excerpt_ends (source : Text) (start stop : Nat) : Ends (excerpt source.lines start stop).lines := by
  rw [excerpt_lines]
  intro hne
  have hlast := List.rdropWhile_last_not _ _ hne
  exact isBlank_of_isBlankOrComment (by simpa using hlast)

theorem excerpt_lines_getElem? {source : Text} {start stop i : Nat}
    (hi : i < (excerpt source.lines start stop).lines.length) :
    (excerpt source.lines start stop).lines[i]? = source.lines[start - 1 + i]? := by
  rw [excerpt_lines] at hi ⊢
  obtain ⟨rest,hrest⟩ := kept_prefix source.lines start stop
  rw [← List.getElem?_drop,← hrest,List.getElem?_append_left hi]

/-- Where a subject begins on a line of the text, its rows are true exactly if no line break stands within
the lines that are shown, and if it does not have exactly seven lines. -/
theorem truthful_iff {s : Subject} (hsource : s.root.source = source.lines) (hstart : 1 ≤ s.start) :
    (of s.source s.start).Truthful source s ↔
      (∀ l ∈ s.source.lines.take 7, l.Unbroken) ∧ s.source.lines.length ≠ 7 := by
  have hlined := Text.lined_lines s.source
  have hends : Ends s.source.lines := by
    rw [Subject.source,hsource]
    exact excerpt_ends source s.start s.stop
  have hget {i : Nat} (hi : i < s.source.lines.length) :
      s.source.lines[i]? = source.lines[s.start + i - 1]? := by
    rw [Nat.sub_add_comm hstart]
    rw [Subject.source,hsource] at hi ⊢
    exact excerpt_lines_getElem? hi
  have hwhole := fun h => Text.flatten_lines s.source ▸ pieces_of_unbroken hlined hends h
  constructor
  · intro h
    have hunbroken : ∀ l ∈ s.source.lines.take 7, l.Unbroken := by
      refine unbroken_of_pieces hlined hends (fun i p hi hp hlt => ?_) 7 (Nat.le_refl 7)
      rw [Text.flatten_lines] at hp
      rw [hget hlt]
      exact h.lines (s.start + i, p) (mem_rows.mpr ⟨i,hi,hp,rfl⟩)
    refine ⟨hunbroken,fun hseven => ?_⟩
    have hmark := h.mark
    rw [marked_iff,length_rows,(hwhole hunbroken).2,hseven] at hmark
    omega
  · rintro ⟨hunbroken,hseven⟩
    obtain ⟨htake,hlength⟩ := hwhole hunbroken
    refine ⟨fun r hr => ?_,?_⟩
    · obtain ⟨i,hi,hp,hr⟩ := mem_rows.mp hr
      rw [← List.getElem?_take_of_lt hi,htake,List.getElem?_take_of_lt hi] at hp
      rw [hr,← hget (List.getElem?_eq_some_iff.mp hp).1,hp]
    · rw [marked_iff,length_rows,hlength]
      omega

end Excerpt

open Outline

theorem Module.tokens_ne_nil [Resources] {file source : Text} {m : Module} (h : Module.ofText file source = .ok m) :
    (Scan.ofText source).tokens ≠ [] := by
  intro hnil
  cases hfault : (Scan.ofText source).fault with
  | none => exact Scan.linesFrom_tokens_ne_nil hfault hnil
  | some fault =>
    unfold Module.ofText Outline.ofText at h
    rw [State.ofText,hnil,hfault] at h
    split at h <;> cases h

theorem Outline.Gathers.start_mem {ts : List Token} {n m : Nat} {ds : List Definition} (h : Gathers ts n ds m)
    (module : Module) (ancestors : List Definition) :
    ∀ s ∈ childSubjects module ancestors ds, ∃ t ∈ ts, s.start = t.start.row := by
  have hkeyword {n i start : Nat} (header : Headed ts n i) (hstart : start = rowAt ts n) :
      ∃ t ∈ ts, start = t.start.row := by
    obtain ⟨t,ht,-⟩ := header.keyword
    exact ⟨t,List.mem_of_getElem? ht,hstart.trans (rowAt_of_getElem? ht)⟩
  induction h generalizing ancestors with
  | ended _ => simp [childSubjects]
  | dedent _ => simp [childSubjects]
  | passing _ _ ih => exact ih ancestors
  | block _ _ _ ih₁ ih₂ =>
    rw [childSubjects_append]
    exact List.forall_mem_append.mpr ⟨ih₁ ancestors,ih₂ ancestors⟩
  | definition header _ _ _ _ _ start _ _ ih₁ ih₂ =>
    rw [childSubjects,Definition.subjects_eq]
    refine List.forall_mem_append.mpr ⟨List.forall_mem_cons.mpr ⟨?_,ih₁ _⟩,ih₂ ancestors⟩
    exact hkeyword header start
  | oneLine header _ _ _ children start _ _ ih =>
    rw [childSubjects,Definition.subjects_eq,children]
    refine List.forall_mem_append.mpr ⟨List.forall_mem_cons.mpr ⟨?_,by simp [childSubjects]⟩,ih ancestors⟩
    exact hkeyword header start

theorem Module.start_pos [Resources] {file source : Text} {m : Module} {s : Subject}
    (h : Module.ofText file source = .ok m) (hs : s ∈ m.subjects) : 1 ≤ s.start := by
  obtain ⟨st,st',hat,hrun⟩ := Module.run_of_ofText h
  obtain ⟨_,-,-,-,j,l,hparts⟩ := (module_moves file source.lines).ok hat hrun
  rcases List.mem_cons.mp hs with rfl | hs
  · obtain ⟨t,ts,hts⟩ := List.exists_cons_of_ne_nil (Module.tokens_ne_nil h)
    have hrow := rowAt_of_getElem? (n := 0) (by rw [hts]; rfl : (Scan.ofText source).tokens[0]? = some t)
    rw [Subject.start,hparts.start,hrow]
    exact Scan.ofText_row_pos (hts ▸ List.mem_cons_self)
  · obtain ⟨t,ht,hrow⟩ := hparts.children.start_mem m [] s hs
    rw [hrow]
    exact Scan.ofText_row_pos ht

/-- Wherever a violation is reported, the rows below it are numbered from the beginning of its subject on,
in one width and not more than seven. They are the beginning of its text, and nothing but blanks is left
out without a mark. Each shows the line that has its number, and the mark stands for lines that are left
out, exactly if no line break stands within the lines that are shown, and if there are not exactly seven
lines. -/
theorem excerpt_truthful_iff [Resources] (o : CheckOptions) (file source : Text) (verdict : Verdict)
    (hv : checkSource o file source = .ok verdict) (v : Violation) (hmem : v ∈ verdict.violations) :
    v.appendix { source := true } = "\n\n".toList ++ v.excerpt.render ++ "\n".toList ∧
      v.excerpt.Ordered v.subject ∧
      (∃ rest, v.excerpt.text ++ rest = v.subject.source ∧
        (rest.isBlank = false → v.excerpt.marked = true)) ∧
      (v.excerpt.Truthful source v.subject ↔
        (∀ l ∈ v.subject.source.lines.take 7, l.Unbroken) ∧ v.subject.source.lines.length ≠ 7) := by
  obtain ⟨m,hm,rfl⟩ := checkSource_eq_ok.mp hv
  have hsubject : v.subject ∈ m.subjects :=
    (CheckOptions.applyAll_pairwise (R := fun _ _ => True) (fun _ _ => trivial)
      (List.pairwise_of_forall fun _ _ => trivial)).2 v hmem
  obtain ⟨_,_,-,hrun⟩ := Module.run_of_ofText hm
  have hsource : v.subject.root.source = source.lines := by
    rw [Module.root_of_mem hsubject,module_source hrun]
  refine ⟨?_,Excerpt.of_ordered v.subject,Excerpt.exists_rest _ _,
    Excerpt.truthful_iff hsource (Module.start_pos hm hsubject)⟩
  rw [Violation.excerpt,← numberedLines_eq]
  rfl

/-- A function whose second line holds a form feed, and one without line breaks within its lines. -/
def paged : Text := "def f():\n  a = '\x0c'\n  return a\ndef g():\n  return 1\n"

open Resources.Builtin

theorem excerpt_truthful_iff_paged : ∃ verdict v w, checkSource {} "a.py" paged = .ok verdict ∧
    v ∈ verdict.violations ∧ w ∈ verdict.violations ∧ v.excerpt.rows.map (·.1) = [1, 2, 3, 4] ∧
    ¬ v.excerpt.Truthful paged v.subject ∧ w.excerpt.rows.map (·.1) = [4, 5] ∧
    w.excerpt.Truthful paged w.subject := by
  have hcheck : ((checkSource {} "a.py" paged).toOption.any fun verdict =>
      (verdict.violations.any fun v => v.excerpt.rows.map (·.1) == [1, 2, 3, 4] &&
        !(v.subject.source.lines.take 7).all (·.Unbroken)) &&
      verdict.violations.any fun w => w.excerpt.rows.map (·.1) == [4, 5] &&
        (w.subject.source.lines.take 7).all (·.Unbroken) && w.subject.source.lines.length == 2) = true := by
    decide +kernel
  obtain ⟨verdict,hv,hcheck⟩ := exists_of_any hcheck
  simp only [Bool.and_eq_true,List.any_eq_true,beq_iff_eq] at hcheck
  obtain ⟨⟨v,hmem,hrows,hbroken⟩,w,hmem',⟨hrows',hwhole⟩,hlength⟩ := hcheck
  refine ⟨verdict,v,w,hv,hmem,hmem',hrows,fun htrue => ?_,hrows',?_⟩
  · have hwhole := ((excerpt_truthful_iff {} _ _ verdict hv v hmem).2.2.2.mp htrue).1
    have hall : (v.subject.source.lines.take 7).all (·.Unbroken) = true :=
      List.all_eq_true.mpr fun l hl => decide_eq_true (hwhole l hl)
    rw [hall] at hbroken
    cases hbroken
  · refine (excerpt_truthful_iff {} _ _ verdict hv w hmem').2.2.2.mpr ⟨fun l hl => ?_,by rw [hlength]; decide⟩
    exact of_decide_eq_true (List.all_eq_true.mp hwhole l hl)

def sevenLines : Text :=
  "def f():\n  a = 1\n  b = 2\n  c = 3\n  d = 4\n  e = 5\n  return a\n"

/-- Seven lines are all shown, each with its number, but the mark says that lines are left out. -/
theorem sevenLines_marked : ∃ verdict v, checkSource {} "a.py" sevenLines = .ok verdict ∧
    v ∈ verdict.violations ∧ v.excerpt.text = v.subject.source ∧ v.subject.source.lines.length = 7 ∧
    v.excerpt.rows.length = 7 ∧ v.excerpt.marked = true ∧ ¬ v.excerpt.Truthful sevenLines v.subject := by
  have hcheck : ((checkSource {} "a.py" sevenLines).toOption.any fun verdict =>
      verdict.violations.any fun v => v.excerpt.text == v.subject.source &&
        v.subject.source.lines.length == 7 && v.excerpt.rows.length == 7) = true := by
    decide +kernel
  obtain ⟨verdict,hv,hcheck⟩ := exists_of_any hcheck
  simp only [Bool.and_eq_true,List.any_eq_true,beq_iff_eq] at hcheck
  obtain ⟨v,hmem,⟨htext,hlines⟩,hrows⟩ := hcheck
  have hmarked : v.excerpt.marked = true := (Excerpt.marked_iff _ _).mpr hrows
  refine ⟨verdict,v,hv,hmem,htext,hlines,hrows,hmarked,fun htrue => ?_⟩
  have hlt := htrue.mark.mp hmarked
  omega

end DocLint
