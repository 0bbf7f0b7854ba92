import DocLint.Proofs.Check.Completion
import DocLint.Proofs.Check.Surroundings
import DocLint.Proofs.Text.Cutting
import DocLint.Proofs.Text.Lines
import DocLint.Resources.Builtin
import DocLint.Text.Dedent

/-!
Indentations by their depth. They are compared in the order of texts; where none of them holds both blanks
and tabs, and neither do two of them together, this is the order of their lengths. The indentation of the
docstring itself is that of the place where its text is found.
-/

set_option autoImplicit false

namespace DocLint

namespace Text

variable {a b : Text} {c : Char}

theorem before_replicate (c : Char) (n m : Nat) :
    before (List.replicate n c) (List.replicate m c) = decide (n < m) := by
  unfold before
  rw [decide_eq_decide]
  induction n generalizing m with
  | zero => cases m <;> simp [List.replicate_succ]
  | succ n ih =>
    cases m with
    | zero => simp
    | succ m => simp [List.replicate_succ,ih]

theorem before_uniform (ha : ∀ x ∈ a, x = c) (hb : ∀ x ∈ b, x = c) : before a b = decide (a.length < b.length) := by
  rw [List.eq_replicate_iff.mpr ⟨rfl,ha⟩,List.eq_replicate_iff.mpr ⟨rfl,hb⟩,before_replicate]
  simp

theorem afterLast_cons (sep : Char) (a b : Text) : afterLast sep (a ++ sep :: b) = afterLast sep b := by
  unfold afterLast
  rw [List.reverse_append,List.reverse_cons,List.append_assoc,List.takeWhile_append]
  split
  · rename_i hall
    have htake := (List.takeWhile_prefix (p := fun x : Char => decide (x ≠ sep))).eq_of_length hall
    rw [htake,List.singleton_append,List.takeWhile_cons_of_neg (by simp),List.append_nil]
  · rfl

end Text

namespace Check.Layout

open Text

variable {s : Subject} {d : Docstring} {indent r : Text} {indents ts : List Text} {c : Char}

/-! ### The order of indentations -/

theorem least_shortest (h : ∀ a ∈ ts, ∀ b ∈ ts, before a b = decide (a.length < b.length)) (hr : least ts = .ok r) :
    r ∈ ts ∧ ∀ t ∈ ts, r.length ≤ t.length := by
  cases ts with
  | nil => cases hr
  | cons t ts =>
    cases hr
    induction ts generalizing t with
    | nil => simp
    | cons u us ih =>
      rw [List.foldl_cons]
      have hsub : ∀ x ∈ (if before u t then u else t) :: us, x ∈ t :: u :: us := by
        intro x hx
        rcases List.mem_cons.mp hx with rfl | hx
        · split <;> simp
        · simp [hx]
      obtain ⟨hmem,hleast⟩ := ih _ fun a ha b hb => h a (hsub a ha) b (hsub b hb)
      refine ⟨hsub _ hmem,fun x hx => ?_⟩
      have hfirst := hleast _ List.mem_cons_self
      have hut := h u (by simp) t (by simp)
      rcases List.mem_cons.mp hx with rfl | hx
      · refine Nat.le_trans hfirst ?_
        split
        · rename_i hb
          rw [hut,decide_eq_true_eq] at hb
          omega
        · exact Nat.le_refl _
      · rcases List.mem_cons.mp hx with rfl | hx
        · refine Nat.le_trans hfirst ?_
          split
          · exact Nat.le_refl _
          · rename_i hb
            rw [hut,decide_eq_true_eq] at hb
            omega
        · exact hleast x (List.mem_cons_of_mem _ hx)

section Uniform

-- All indentations are made of one character.
variable (hi : ∀ x ∈ indent, x = c) (hu : ∀ t ∈ indents, ∀ x ∈ t, x = c)

include hi hu

theorem isDeeper_uniform {b : Bool} (h : isDeeper indent indents = .ok b) : b = true ↔
    (∃ t, indents.getLast? = some t ∧ indent.length < t.length) ∨
      2 ≤ indents.length ∧ ∀ t ∈ indents.dropLast, indent.length < t.length := by
  have hlast : (indents.getLast?.any fun t => before indent t) = true ↔
      ∃ t, indents.getLast? = some t ∧ indent.length < t.length := by
    rw [Option.any_eq_true]
    refine exists_congr fun t => and_congr_right fun ht => ?_
    rw [before_uniform hi (hu t (List.mem_of_getLast? ht)),decide_eq_true_eq]
  unfold isDeeper at h
  dsimp only at h
  split at h
  · rename_i hlen
    obtain ⟨r,hr⟩ := @least_ok indents.dropLast (by rw [List.length_dropLast]; omega)
    rw [hr] at h
    cases h
    have hfront : ∀ t ∈ indents.dropLast, ∀ x ∈ t, x = c := fun t ht => hu t (List.mem_of_mem_dropLast ht)
    obtain ⟨hmem,hleast⟩ := least_shortest (fun a ha b hb => before_uniform (hfront a ha) (hfront b hb)) hr
    rw [Bool.or_eq_true,hlast,before_uniform hi (hfront r hmem),decide_eq_true_eq,or_comm]
    refine or_congr_right ⟨fun hr => ⟨hlen,fun t ht => Nat.lt_of_lt_of_le hr (hleast t ht)⟩,fun hall => hall.2 r hmem⟩
  · rename_i hlen
    cases h
    rw [hlast]
    exact ⟨.inl,fun h => h.resolve_right fun hr => hlen hr.1⟩

theorem isShallower_uniform {b : Bool} (h : isShallower indent indents = .ok b) :
    b = true ↔ ∃ t ∈ indents, t.length < indent.length := by
  unfold isShallower at h
  split at h
  · rename_i hlen
    obtain ⟨r,hr⟩ := least_ok hlen
    rw [hr] at h
    cases h
    obtain ⟨hmem,hleast⟩ := least_shortest (fun a ha b hb => before_uniform (hu a ha) (hu b hb)) hr
    rw [before_uniform (hu r hmem) hi,decide_eq_true_eq]
    exact ⟨fun hr => ⟨r,hmem,hr⟩,fun ⟨t,ht,hlt⟩ => Nat.lt_of_le_of_lt (hleast t ht) hlt⟩
  · rename_i hlen
    cases h
    obtain rfl : indents = [] := List.length_eq_zero_iff.mp (by omega)
    simp

end Uniform

theorem exists_uniform {t : Text} (hm : isMargin t = true) (h : isMixed t = false) : ∃ c, ∀ x ∈ t, x = c := by
  have hall : ∀ x ∈ t, x = ' ' ∨ x = '\t' := by simpa [isMargin,isMarginChar] using hm
  by_cases hblank : ' ' ∈ t
  · refine ⟨' ',fun x hx => (hall x hx).resolve_right ?_⟩
    rintro rfl
    have hboth : isMixed t = true := by simpa [isMixed,hblank,hx] using hall
    rw [h] at hboth
    cases hboth
  · refine ⟨'\t',fun x hx => (hall x hx).resolve_left ?_⟩
    rintro rfl
    exact hblank hx

/-! ### Lines whose indentation counts -/

/-- Whether the indentation of a line counts: it is not the first line, it is not blank, and the line above
does not end with a backslash. -/
def isConsidered (lines : List Text) (i : Nat) : Bool :=
  0 < i && !"\\".toList.isSuffixOf (lines.getD (i - 1) []) && !isBlank (lines.getD i [])

def consideredLines (t : Text) : List Text :=
  let lines := splitOn '\n' t
  ((List.range lines.length).filter (isConsidered lines)).map fun i => lines.getD i []

theorem zip_drop (lines : List Text) : lines.zip (lines.drop 1) =
    (List.range (lines.length - 1)).map fun i => (lines.getD i [], lines.getD (i + 1) []) := by
  refine List.ext_getElem (by simp) fun i h h' => ?_
  have hi : i + 1 < lines.length := by simp at h'; omega
  have hi' : i < lines.length := by omega
  simp [List.getD_eq_getElem?_getD,hi,hi']

theorem filter_indentedLines (t : Text) :
    (indentedLines (splitOn '\n' t)).filter (fun l => !isBlank l) = consideredLines t := by
  unfold indentedLines consideredLines
  generalize hlines : splitOn '\n' t = lines
  obtain ⟨n,hn⟩ : ∃ n, lines.length = n + 1 :=
    Nat.exists_eq_succ_of_ne_zero (by simp [← hlines,splitOn_ne_nil])
  have hfirst : isConsidered lines 0 = false := rfl
  dsimp only
  rw [zip_drop,hn,List.range_succ_eq_map,List.filter_cons,hfirst]
  simp only [List.filter_map,List.map_map,List.filter_filter,Nat.add_sub_cancel,Bool.false_eq_true,if_false]
  refine congrArg (List.map _) (List.filter_congr fun i _ => ?_)
  simp [isConsidered,Bool.and_comm]

/-! ### What is found -/

structure ByDepth (indent : Text) (lines : List Text) (rules : List Rule) : Prop where
  shallower : .D207 ∈ rules ↔ ∃ l ∈ lines, l.leadingSpace.length < indent.length
  deeper : .D208 ∈ rules ↔ (∃ l, lines.getLast? = some l ∧ indent.length < l.leadingSpace.length) ∨
    2 ≤ lines.length ∧ ∀ l ∈ lines.dropLast, indent.length < l.leadingSpace.length

theorem indentation_broken (h : '\n' ∈ d.text) : ∃ deeper shallower,
    isDeeper (surroundings s d).indent ((consideredLines d.text).map leadingSpace) = .ok deeper ∧
    isShallower (surroundings s d).indent ((consideredLines d.text).map leadingSpace) = .ok shallower ∧
    (indentation s d).broken =
      (if isMixed (((consideredLines d.text).map leadingSpace).flatten ++ (surroundings s d).indent) then [.D206] else []) ++
        ((if deeper then [.D208] else []) ++ if shallower then [.D207] else []) := by
  have hlines : ¬(splitOn '\n' d.text).length ≤ 1 := by
    obtain ⟨a,b,hab⟩ := List.append_of_mem h
    have ha := List.length_pos_iff.mpr (splitOn_ne_nil '\n' a)
    have hb := List.length_pos_iff.mpr (splitOn_ne_nil '\n' b)
    rw [hab,splitOn_append_cons,List.length_append]
    omega
  obtain ⟨deeper,hdeeper⟩ := isDeeper_ok (surroundings s d).indent ((consideredLines d.text).map leadingSpace)
  obtain ⟨shallower,hshallower⟩ := isShallower_ok (surroundings s d).indent ((consideredLines d.text).map leadingSpace)
  refine ⟨deeper,shallower,hdeeper,hshallower,?_⟩
  unfold indentation
  simp only [if_neg hlines,filter_indentedLines,hdeeper,hshallower]
  generalize isMixed _ = mixed
  cases mixed <;> cases deeper <;> cases shallower <;> rfl

theorem indentation_depth (h : '\n' ∈ d.text) (hindent : isMargin (surroundings s d).indent = true)
    (hspaces : ∀ l ∈ consideredLines d.text, isMargin l.leadingSpace = true)
    (hmixed : .D206 ∉ (indentation s d).broken) :
    ByDepth (surroundings s d).indent (consideredLines d.text) (indentation s d).broken := by
  obtain ⟨deeper,shallower,hdeeper,hshallower,hbroken⟩ := indentation_broken (s := s) h
  rw [hbroken] at hmixed ⊢
  generalize hindents : (consideredLines d.text).map leadingSpace = indents at *
  have hmargin : isMargin (indents.flatten ++ (surroundings s d).indent) = true := by
    refine List.all_eq_true.mpr fun x hx => ?_
    rcases List.mem_append.mp hx with hx | hx
    · obtain ⟨_,ht,hx⟩ := List.mem_flatten.mp hx
      rw [← hindents] at ht
      obtain ⟨l,hl,rfl⟩ := List.mem_map.mp ht
      exact List.all_eq_true.mp (hspaces l hl) x hx
    · exact List.all_eq_true.mp hindent x hx
  have hpure : isMixed (indents.flatten ++ (surroundings s d).indent) = false := by
    cases hm : isMixed (indents.flatten ++ (surroundings s d).indent) with
    | false => rfl
    | true => simp [hm] at hmixed
  obtain ⟨c,hc⟩ := exists_uniform hmargin hpure
  have hi : ∀ x ∈ (surroundings s d).indent, x = c := fun x hx => hc x (List.mem_append_right _ hx)
  have hu : ∀ t ∈ indents, ∀ x ∈ t, x = c := fun t ht x hx =>
    hc x (List.mem_append_left _ (List.mem_flatten.mpr ⟨t,ht,hx⟩))
  have hd := isDeeper_uniform hi hu hdeeper
  have hs := isShallower_uniform hi hu hshallower
  simp only [← hindents,List.getLast?_map,Option.map_eq_some_iff,List.length_map,← List.map_dropLast,List.mem_map,
    forall_exists_index,and_imp,forall_apply_eq_imp_iff₂] at hd hs
  constructor
  · rw [hpure]
    cases deeper <;> cases shallower <;> simp_all
  · rw [hpure]
    cases deeper <;> cases shallower <;> simp_all

end Check.Layout

/-! ### The docstring's own indentation -/

open Check.Layout

variable {file source : Text} {m : Module} {s : Subject} {d : Docstring} {o : CheckOptions} {row : Nat} {t : Token}

theorem textBefore_line (h : row - 1 < source.lines.length) :
    textBefore source.lines ⟨row, 0⟩ = [] ∨ ∃ a, textBefore source.lines ⟨row, 0⟩ = a ++ ['\n'] := by
  simp only [textBefore,List.take_zero,List.append_nil]
  cases hrow : row - 1 with
  | zero => exact .inl rfl
  | succ n =>
    have hn : n < source.lines.length := by omega
    have hlines : source.lines = source.lines.take n ++ source.lines[n] :: source.lines.drop (n + 1) := by
      rw [List.cons_getElem_drop_succ,List.take_append_drop]
    have hmore : source.lines.drop (n + 1) ≠ [] := by
      rw [ne_eq,List.drop_eq_nil_iff]
      omega
    obtain ⟨body,hbody⟩ := (hlines ▸ Text.lined_lines source).ends_in_feed hmore
    refine .inr ⟨(source.lines.take n).flatten ++ body,?_⟩
    rw [List.take_succ_eq_append_getElem hn,hbody]
    simp

theorem indent_of_splitsBehind (hl : Located source.lines t) (hk : t.kind = .string) (hstart : s.start ≤ t.start.row)
    (h : s.SplitsBehind d (textFrom source.lines s.start t.start)) :
    (surroundings s d).indent = Text.afterLast '\n' (textBefore source.lines t.start) := by
  obtain ⟨_,hline,-⟩ := hl.closed hk
  have hlast := (List.getElem?_eq_some_iff.mp hline.line).1
  have hrows := hl.row_le hk
  rw [Surroundings.indent,h.1,textBefore_append_textFrom hstart]
  rcases @textBefore_line source s.start (by omega) with hnil | ⟨a,ha⟩
  · rw [hnil,List.nil_append]
  · rw [ha,List.append_assoc,List.singleton_append,Text.afterLast_cons]

/-- Lines are judged by their depth below the place where the docstring's text is found. This is the
docstring's own place if its text does not occur before, and something is left of its last line. -/
theorem indentation_by_depth [Resources] (hm : Module.ofText file source = .ok m) (hs : s ∈ m.subjects)
    (hd : s.docstring = some d) (hlines : '\n' ∈ d.text) :
    ∃ i t, s.DocstringToken (Scan.ofText source).tokens d i t ∧ (Check.indentation.run o s).IsComplete ∧
      (.D206 ∉ (Check.indentation.run o s).broken →
        (∀ l ∈ consideredLines d.text, Text.isMargin l.leadingSpace = true) →
        (Text.isMargin (surroundings s d).indent = true →
          ByDepth (surroundings s d).indent (consideredLines d.text) (Check.indentation.run o s).broken) ∧
        ((∃ l ∈ (source.lines.take s.stop).drop (d.stop - 1), isBlankOrComment l = false) →
          ¬d.text <:+: (textFrom source.lines s.start t.start ++ d.text).dropLast →
          Text.isMargin (Text.afterLast '\n' (textBefore source.lines t.start)) = true →
          ByDepth (Text.afterLast '\n' (textBefore source.lines t.start)) (consideredLines d.text)
            (Check.indentation.run o s).broken)) := by
  obtain ⟨hsource,i,t,htoken,hlocated,hstart⟩ := Subject.docstring_located hm hs hd
  have hrun : Check.indentation.run o s = indentation s d := Check.run_of_documented hd (by decide)
  rw [hrun]
  refine ⟨i,t,htoken,indentation_complete s d,fun hmixed hspaces => ⟨fun hmargin => ?_,fun hline hfirst hmargin => ?_⟩⟩
  · exact indentation_depth hlines hmargin hspaces hmixed
  · obtain rfl := htoken.docstring
    have hne : t.value ≠ [] := by
      intro hnil
      simp [hnil] at hlines
    have hsplits : s.SplitsBehind ⟨t.value, t.start.row, t.stop.row⟩ (textFrom source.lines s.start t.start) := by
      rw [Subject.splitsBehind_iff hne,Subject.source,hsource]
      exact (cut?_excerpt_iff hlocated htoken.isString hstart).mpr ⟨hline,hfirst⟩
    rw [← indent_of_splitsBehind hlocated htoken.isString hstart hsplits] at hmargin ⊢
    exact indentation_depth hlines hmargin hspaces hmixed

/-- A function whose docstring has a line that is less indented than it, and one that is more. -/
def staggered : Text := "def f():\n    \"\"\"Do.\n\n  Less.\n      More.\n    \"\"\"\n"

open Resources.Builtin

theorem indentation_by_depth_staggered : ∃ m s d, Module.ofText "a.py" staggered = .ok m ∧ s ∈ m.subjects ∧
    s.docstring = some d ∧ d.start = 2 ∧
    ByDepth "    ".toList ["  Less.".toList, "      More.".toList, "    \"\"\"".toList]
      (Check.indentation.run {} s).broken ∧
    .D207 ∈ (Check.indentation.run {} s).broken ∧ .D208 ∉ (Check.indentation.run {} s).broken := by
  have hrun : ((Module.ofText "a.py" staggered).toOption.any fun m => m.subjects.any fun s =>
      s.docstring == some ⟨"\"\"\"Do.\n\n  Less.\n      More.\n    \"\"\"", 2, 6⟩ && s.start == 1 && s.stop == 6 &&
        !(Check.indentation.run {} s).broken.contains .D206) = true := by
    decide +kernel
  have hplace : ((Scan.ofText staggered).tokens.all fun t => t.kind != .string || t.start == ⟨2, 4⟩) = true := by
    decide +kernel
  obtain ⟨m,s,hm,hs,htest⟩ := Module.exists_subject hrun
  simp only [Bool.and_eq_true,Bool.not_eq_true',beq_iff_eq,List.contains_eq_mem,decide_eq_false_iff_not] at htest
  obtain ⟨⟨⟨hd,hstart⟩,hstop⟩,hmixed⟩ := htest
  obtain ⟨i,t,htoken,-,hdepth⟩ := indentation_by_depth hm hs hd (by decide +kernel)
  have ht : t.start = ⟨2, 4⟩ := by
    have h := List.all_eq_true.mp hplace t (List.mem_of_getElem? htoken.token)
    simpa [htoken.isString] using h
  have hlines : consideredLines "\"\"\"Do.\n\n  Less.\n      More.\n    \"\"\"".toList =
      ["  Less.".toList, "      More.".toList, "    \"\"\"".toList] := by decide +kernel
  have hindent : Text.afterLast '\n' (textBefore staggered.lines ⟨2, 4⟩) = "    ".toList := by decide +kernel
  rw [hstart,hstop,ht,hlines,hindent] at hdepth
  have hby := (hdepth hmixed (by decide +kernel)).2 (by decide +kernel) (by decide +kernel) (by decide +kernel)
  refine ⟨m,s,_,hm,hs,hd,rfl,hby,hby.shallower.mpr (by decide +kernel),fun hdeeper => ?_⟩
  exact absurd (hby.deeper.mp hdeeper) (by decide +kernel)

/-- A function whose docstring ends with a line like a comment, at its own depth. -/
def hashed : Text := "def f():\n    \"\"\"A.\n\n    # b\"\"\"\n"

/-- The excerpt of the function lacks such a line: the docstring is not found in it, and counts as not
indented. -/
theorem hashed_overIndented : ∃ m s d, Module.ofText "a.py" hashed = .ok m ∧ s ∈ m.subjects ∧
    s.docstring = some d ∧ consideredLines d.text = ["    # b\"\"\"".toList] ∧
    (Check.indentation.run {} s).broken = [.D208] ∧
    ¬ByDepth "    ".toList (consideredLines d.text) (Check.indentation.run {} s).broken := by
  have hrun : ((Module.ofText "a.py" hashed).toOption.any fun m => m.subjects.any fun s =>
      s.docstring.any fun d => consideredLines d.text == ["    # b\"\"\"".toList] &&
        (Check.indentation.run {} s).broken == [.D208]) = true := by
    decide +kernel
  obtain ⟨m,s,hm,hs,htest⟩ := Module.exists_subject hrun
  obtain ⟨d,hd,htest⟩ := (Option.any_eq_true _ _).mp htest
  simp only [Bool.and_eq_true,beq_iff_eq] at htest
  refine ⟨m,s,d,hm,hs,hd,htest.1,htest.2,fun hby => ?_⟩
  rw [htest.1,htest.2] at hby
  exact absurd (hby.deeper.mp (by decide)) (by decide +kernel)

end DocLint
