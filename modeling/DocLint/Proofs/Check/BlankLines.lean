import DocLint.Proofs.Check.Completion
import DocLint.Proofs.Text.Cutting
import DocLint.Resources.Builtin

/-!
Docstrings of one line. Three checks cut the same text, each in its own way: as it is, without the
whitespace around it, and without its blank lines. They agree on which lines are filled.
-/

set_option autoImplicit false

namespace DocLint

namespace Text

variable {a b t : Text} {c : Char}

def blankness (t : Text) : List Bool := (splitOn '\n' t).map isBlank

def filledLines (t : Text) : List Text := (splitOn '\n' t).filter fun l => !isBlank l

/-- How many blank lines follow directly on the first line that is not blank. -/
def gapBelowFirst (t : Text) : Nat := ((((splitOn '\n' t).dropWhile isBlank).drop 1).takeWhile isBlank).length

theorem isBlank_cons : isBlank (c :: t) = (isSpace c && isBlank t) := by
  rw [Bool.eq_iff_iff]
  simp [isBlank_iff]

theorem blankness_feed (t : Text) : blankness ('\n' :: t) = true :: blankness t := by
  have hsplit := splitOn_append_cons '\n' [] t
  rw [List.nil_append] at hsplit
  rw [blankness,hsplit,List.map_append]
  rfl

theorem blankness_cons (hc : c ≠ '\n') (t : Text) :
    ∃ x xs, blankness t = x :: xs ∧ blankness (c :: t) = (isSpace c && x) :: xs := by
  cases hs : splitOn '\n' t with
  | nil => exact absurd hs (splitOn_ne_nil '\n' t)
  | cons l ls => exact ⟨isBlank l,ls.map isBlank,by simp [blankness,hs],by simp [blankness,splitOn,hs,hc,isBlank_cons]⟩

theorem length_filledLines (t : Text) : (filledLines t).length = (blankness t).count false := by
  rw [filledLines,blankness,List.count,List.countP_map,← List.countP_eq_length_filter]
  exact List.countP_congr fun l _ => by simp

theorem gapBelowFirst_eq (t : Text) :
    gapBelowFirst t = ((((blankness t).dropWhile id).drop 1).takeWhile id).length := by
  simp only [gapBelowFirst,blankness,List.dropWhile_map,← List.map_drop,List.takeWhile_map,List.length_map,
    Function.id_comp]

theorem one_lt_length_splitOn {sep : Char} : 1 < (splitOn sep t).length ↔ sep ∈ t := by
  constructor
  · intro h
    by_cases hmem : sep ∈ t
    · exact hmem
    · simp [splitOn_of_not_mem hmem] at h
  · intro h
    obtain ⟨a,b,rfl⟩ := List.append_of_mem h
    have ha := List.length_pos_iff.mpr (splitOn_ne_nil sep a)
    have hb := List.length_pos_iff.mpr (splitOn_ne_nil sep b)
    rw [splitOn_append_cons,List.length_append]
    omega

/-! ### Whitespace around a text -/

theorem blankness_spaces_append (ha : ∀ c ∈ a, isSpace c = true) (t : Text) :
    ∃ n, blankness (a ++ t) = List.replicate n true ++ blankness t := by
  induction a with
  | nil => exact ⟨0,rfl⟩
  | cons c a ih =>
    obtain ⟨hc,ha⟩ := List.forall_mem_cons.mp ha
    obtain ⟨n,hn⟩ := ih ha
    by_cases hfeed : c = '\n'
    · subst hfeed
      exact ⟨n + 1,by rw [List.cons_append,blankness_feed,hn]; rfl⟩
    · obtain ⟨x,xs,hx,hxs⟩ := blankness_cons hfeed (a ++ t)
      exact ⟨n,by rw [List.cons_append,hxs,hc,Bool.true_and,← hx,hn]⟩

theorem blankness_append_spaces (hb : ∀ c ∈ b, isSpace c = true) (t : Text) :
    ∃ n, blankness (t ++ b) = blankness t ++ List.replicate n true := by
  induction t with
  | nil =>
    obtain ⟨n,hn⟩ := blankness_spaces_append hb []
    rw [List.append_nil] at hn
    exact ⟨n,by rw [List.nil_append,hn]; exact (List.replicate_succ' ..).symm⟩
  | cons c t ih =>
    obtain ⟨n,hn⟩ := ih
    by_cases hfeed : c = '\n'
    · subst hfeed
      exact ⟨n,by rw [List.cons_append,blankness_feed,blankness_feed,hn]; rfl⟩
    · obtain ⟨x,xs,hx,hxs⟩ := blankness_cons hfeed t
      obtain ⟨y,ys,hy,hys⟩ := blankness_cons hfeed (t ++ b)
      rw [hx,hy] at hn
      obtain ⟨rfl,rfl⟩ := List.cons.inj hn
      exact ⟨n,by rw [List.cons_append,hys,hxs]; rfl⟩

theorem ne_feed_of_not_space (hc : isSpace c = false) : c ≠ '\n' := by
  rintro rfl
  exact absurd hc (by decide)

theorem blankness_opens (hc : isSpace c = false) (t : Text) : ∃ xs, blankness (c :: t) = false :: xs := by
  obtain ⟨x,xs,-,hxs⟩ := blankness_cons (ne_feed_of_not_space hc) t
  exact ⟨xs,by rw [hxs,hc]; rfl⟩

theorem blankness_ends (hc : isSpace c = false) (t : Text) : ∃ xs, blankness (t ++ [c]) = xs ++ [false] := by
  induction t with
  | nil => exact ⟨[],by simp [blankness,splitOn,ne_feed_of_not_space hc,isBlank_cons,hc]⟩
  | cons d t ih =>
    obtain ⟨xs,hxs⟩ := ih
    by_cases hfeed : d = '\n'
    · subst hfeed
      exact ⟨true :: xs,by rw [List.cons_append,blankness_feed,hxs]; rfl⟩
    · obtain ⟨y,ys,hy,hys⟩ := blankness_cons hfeed (t ++ [c])
      rw [hxs] at hy
      rw [List.cons_append,hys]
      cases xs with
      | nil =>
        obtain ⟨rfl,rfl⟩ := List.cons.inj hy
        exact ⟨[],by simp⟩
      | cons x xs =>
        obtain ⟨rfl,rfl⟩ := List.cons.inj hy
        exact ⟨_ :: xs,rfl⟩

/-- Stripped of the whitespace around it, a text keeps its lines from the first that is filled to the last. -/
theorem blankness_strip (h : isBlank t = false) : ∃ i j xs,
    blankness t = List.replicate i true ++ (false :: xs) ++ List.replicate j true ∧
      blankness t.strip = false :: xs ∧ (xs ≠ [] → ∃ ys, xs = ys ++ [false]) := by
  obtain ⟨a,b,u,e,ht,ha,hb,hend,he⟩ := strip_parts h
  obtain ⟨c,cs,hopen,hc⟩ := strip_of_not_blank h
  obtain ⟨xs,hxs⟩ := blankness_opens hc cs
  obtain ⟨ys,hys⟩ := blankness_ends he u
  rw [← hopen] at hxs
  rw [← hend,hxs] at hys
  obtain ⟨i,hi⟩ := blankness_spaces_append ha (t.strip ++ b)
  obtain ⟨j,hj⟩ := blankness_append_spaces hb t.strip
  refine ⟨i,j,xs,?_,hxs,fun hne => ?_⟩
  · have hlines := congrArg blankness ht
    rwa [List.append_assoc,hi,hj,hxs,← List.append_assoc] at hlines
  · cases ys with
    | nil => exact absurd (List.cons.inj hys).2 hne
    | cons y ys => exact ⟨ys,(List.cons.inj hys).2⟩

end Text

namespace Check

open Text

variable {o : CheckOptions} {s : Subject} {d : Docstring} {v : Text}

namespace Layout

theorem oneLine_eq [Resources] (hv : d.content = .ok v) : oneLine d =
    .ok (if '\n' ∈ v ∧ v.filledLines.length = 1 then [Rule.D200.count (splitOn '\n' v).length] else []) := by
  rw [oneLine,Docstring.judged,hv]
  simp [Except.map,filledLines,← one_lt_length_splitOn]

/-- The blank lines that count are those below the first filled line, if another one is filled. -/
theorem blankAfterSummary_eq [Resources] (hv : d.content = .ok v) (hb : v.isBlank = false) : blankAfterSummary d =
    .ok (if 2 ≤ v.filledLines.length ∧ v.gapBelowFirst ≠ 1 then [Rule.D205.count v.gapBelowFirst] else []) := by
  obtain ⟨i,j,xs,hlines,hstripped,hlast⟩ := blankness_strip hb
  have hfirst : (blankness v).dropWhile id = false :: (xs ++ List.replicate j true) := by
    rw [hlines,List.append_assoc,List.dropWhile_append_of_pos (by simp)]
    rfl
  have hcount : (blankness v).count false = xs.count false + 1 := by simp [hlines,List.count_replicate]
  rw [blankAfterSummary,Docstring.judged,hv,length_filledLines,gapBelowFirst_eq,hfirst,hcount]
  unfold blankness at hstripped
  cases hs : splitOn '\n' v.strip with
  | nil => exact absurd hs (splitOn_ne_nil '\n' _)
  | cons l ls =>
    rw [hs,List.map_cons] at hstripped
    obtain ⟨-,hxs⟩ := List.cons.inj hstripped
    cases ls with
    | nil =>
      subst hxs
      simp [Except.map,hs]
    | cons k ks =>
      obtain ⟨ys,hys⟩ := hlast (by simp [← hxs])
      have hfilled : 2 ≤ xs.count false + 1 := by simp [hys]
      -- The whitespace behind the last filled line does not count.
      have hgap : (xs ++ List.replicate j true).takeWhile id = xs.takeWhile id := by
        simp [hys,List.takeWhile_append]
      have hblanks : leadingBlanks (k :: ks) = (xs.takeWhile id).length := by
        rw [leadingBlanks,← hxs,List.takeWhile_map,List.length_map]
        rfl
      simp only [hfilled,true_and]
      simp [Except.map,hs,hgap,hblanks]

theorem closingQuotes_eq_nil [Resources] (hv : d.content = .ok v) (h : v.filledLines.length ≤ 1) : closingQuotes d = .ok [] := by
  have hnot : ¬1 < ((splitOn '\n' v).filter fun l => !isBlank l).length := Nat.not_lt.mpr h
  rw [closingQuotes,Docstring.judged,hv]
  simp [Except.map,hnot]

end Layout

/-- The checks on lines agree on what a docstring of one line is. -/
theorem oneLine_agrees [Resources] (hd : s.docstring = some d) (hv : d.value = .ok (.text v)) (hb : v.isBlank = false) :
    (oneLine.run o s).IsComplete ∧ (blankAfterSummary.run o s).IsComplete ∧ (closingQuotes.run o s).IsComplete ∧
      (.D200 ∈ (oneLine.run o s).broken →
        .D205 ∉ (blankAfterSummary.run o s).broken ∧ .D209 ∉ (closingQuotes.run o s).broken) ∧
      (.D200 ∈ (oneLine.run o s).broken ↔ '\n' ∈ v ∧ v.filledLines.length = 1) ∧
      (.D205 ∈ (blankAfterSummary.run o s).broken ↔ 2 ≤ v.filledLines.length ∧ v.gapBelowFirst ≠ 1) := by
  have hc := Docstring.content_of_value hv
  have hone : oneLine.run o s = _ := run_of_documented hd (by decide)
  have hafter : blankAfterSummary.run o s = _ := run_of_documented hd (by decide)
  have hquotes : closingQuotes.run o s = _ := run_of_documented hd (by decide)
  have h200 : .D200 ∈ (oneLine.run o s).broken ↔ '\n' ∈ v ∧ v.filledLines.length = 1 := by
    rw [hone,inspect,Layout.oneLine_eq hc]
    split <;> simp_all [Outcome.ofExcept,Outcome.broken,Rule.count]
  have h205 : .D205 ∈ (blankAfterSummary.run o s).broken ↔ 2 ≤ v.filledLines.length ∧ v.gapBelowFirst ≠ 1 := by
    rw [hafter,inspect,Layout.blankAfterSummary_eq hc hb]
    split <;> simp_all [Outcome.ofExcept,Outcome.broken,Rule.count]
  refine ⟨?_,?_,?_,fun h => ⟨?_,?_⟩,h200,h205⟩
  · rw [hone]
    exact Outcome.isComplete_ofExcept ⟨_,Layout.oneLine_eq hc⟩
  · rw [hafter]
    exact Outcome.isComplete_ofExcept ⟨_,Layout.blankAfterSummary_eq hc hb⟩
  · rw [hquotes]
    exact Outcome.isComplete_ofExcept (Docstring.judged_ok hc _)
  · have hfilled := (h200.mp h).2
    rw [h205]
    omega
  · have hfilled := (h200.mp h).2
    rw [hquotes,inspect,Layout.closingQuotes_eq_nil hc (by omega)]
    simp [Outcome.ofExcept,Outcome.broken]

def padded : Docstring := ⟨"\"\"\"\n\n    Sum up.\n\t\n    \"\"\"", 1, 5⟩

open Resources.Builtin

theorem oneLine_agrees_padded : ∃ (s : Subject) (v : Text), s.docstring = some padded ∧
    padded.value = .ok (.text v) ∧ v.isBlank = false ∧ .D200 ∈ (oneLine.run {} s).broken ∧
    .D205 ∉ (blankAfterSummary.run {} s).broken ∧ .D209 ∉ (closingQuotes.run {} s).broken := by
  let s : Subject := .module ⟨"a.py", [], 1, 5, some padded, [], [], none, none, []⟩
  let v : Text := "\n\n    Sum up.\n\t\n    "
  have hv : padded.value = .ok (.text v) := rfl
  have hb : v.isBlank = false := by decide +kernel
  obtain ⟨-,-,-,hno,hone,-⟩ := oneLine_agrees (o := {}) (s := s) rfl hv hb
  have hfound := hone.mpr ⟨by decide,by decide +kernel⟩
  exact ⟨s,v,rfl,hv,hb,hfound,hno hfound⟩

end Check

end DocLint
