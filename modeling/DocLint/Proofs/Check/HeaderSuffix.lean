import DocLint.Proofs.Check.Partition
import DocLint.Proofs.Check.Rules
import DocLint.Resources.Builtin

/-!
What follows the name of a section on its header. The name is taken off as a set of characters; since the
first character behind it belongs to no word, this leaves exactly what follows the name.
-/

set_option autoImplicit false

namespace DocLint

namespace Text

variable {a b set t w : Text}

/-- A set of characters takes off a beginning made of them, and nothing behind it that opens with another one. -/
theorem stripLeftOf_append (ha : ∀ c ∈ a, c ∈ set) (hb : ∀ c cs, b = c :: cs → c ∉ set) :
    stripLeftOf set (a ++ b) = b := by
  rw [stripLeftOf,List.dropWhile_append_of_pos fun c hc => List.contains_iff_mem.mpr (ha c hc)]
  cases b with
  | nil => rfl
  | cons c cs => exact List.dropWhile_cons_of_neg (mt List.contains_iff_mem.mp (hb c cs rfl))

theorem stripLeftOf_spaces (hw : ∀ c ∈ w, isSpace c = true) (hb : ∀ c cs, b = c :: cs → c ∉ set) :
    ∃ w', stripLeftOf set (w ++ b) = w' ++ b ∧ ∀ c ∈ w', isSpace c = true := by
  induction w with
  | nil => exact ⟨[],stripLeftOf_append (by simp) hb,by simp⟩
  | cons c w ih =>
    by_cases hc : c ∈ set
    · obtain ⟨w',hleft,hw'⟩ := ih fun d hd => hw d (List.mem_cons_of_mem c hd)
      refine ⟨w',?_,hw'⟩
      rw [← hleft]
      exact List.dropWhile_cons_of_pos (List.contains_iff_mem.mpr hc)
    · exact ⟨c :: w,List.dropWhile_cons_of_neg (mt List.contains_iff_mem.mp hc),hw⟩

theorem strip_spaces_append (hw : ∀ c ∈ w, isSpace c = true) (t : Text) : strip (w ++ t) = strip t := by
  rw [strip,stripLeft,List.dropWhile_append_of_pos hw]
  rfl

/-- A text that does not open with whitespace loses whitespace at its end only. -/
theorem strip_append_spaces (ht : ∀ c cs, t = c :: cs → isSpace c = false) :
    ∃ w, t = t.strip ++ w ∧ ∀ c ∈ w, isSpace c = true := by
  cases hblank : isBlank t with
  | true => exact ⟨t,by rw [List.isEmpty_iff.mp hblank]; rfl,(isBlank_iff t).mp hblank⟩
  | false =>
    obtain ⟨before,w,-,-,hparts,hbefore,hw,-⟩ := strip_parts hblank
    cases before with
    | nil => exact ⟨w,hparts,hw⟩
    | cons c before =>
      have hspace := hbefore c List.mem_cons_self
      rw [ht c _ hparts] at hspace
      cases hspace

/-- A set of characters with or without whitespace at its end takes off the same, whitespace apart. -/
theorem strip_stripLeftOf_strip (ht : ∀ c cs, t = c :: cs → isSpace c = false)
    (hb : ∀ c cs, b = c :: cs → c ∉ t) : (stripLeftOf t.strip (t ++ b)).strip = b.strip := by
  obtain ⟨w,hw,hspaces⟩ := strip_append_spaces ht
  have hsub : ∀ c ∈ t.strip, c ∈ t := fun c hc => hw ▸ List.mem_append_left w hc
  obtain ⟨w',hleft,hw'⟩ := stripLeftOf_spaces hspaces fun c cs hcs hmem => hb c cs hcs (hsub c hmem)
  have hdrop : stripLeftOf t.strip (t ++ b) = stripLeftOf t.strip (w ++ b) := by
    rw [congrArg (· ++ b) hw,List.append_assoc,stripLeftOf,
      List.dropWhile_append_of_pos fun c hc => List.contains_iff_mem.mpr hc]
    rfl
  rw [hdrop,hleft,strip_spaces_append hw']

end Text

/-- A line has its words and what follows them, which opens with a character of no word. -/
theorem leadingWords_parts (line : Text) : ∃ rest, line.strip = leadingWords line ++ rest ∧
    (∀ c ∈ leadingWords line, (Text.isWord c || c = ' ') = true) ∧
    ∀ c cs, rest = c :: cs → (Text.isWord c || c = ' ') = false := by
  refine ⟨line.strip.dropWhile fun c => Text.isWord c || c = ' ',List.takeWhile_append_dropWhile.symm,
    List.all_eq_true.mp List.all_takeWhile,fun c cs hcs => ?_⟩
  have hhead := List.head_dropWhile_not (l := line.strip) (fun c => Text.isWord c || c = ' ') (by simp [hcs])
  simpa only [hcs,List.head_cons] using hhead

namespace Section

variable {line name rest previous : Text}

structure Follows (line name rest : Text) : Prop where
  parts : line.strip = name ++ rest
  taken : Text.stripLeftOf name line.strip = rest
  strippedTaken : (Text.stripLeftOf name.strip line.strip).strip = rest.strip

theorem follows_leadingWords (line : Text) : ∃ rest, Follows line (leadingWords line) rest := by
  obtain ⟨rest,hparts,hwords,hrest⟩ := leadingWords_parts line
  have hapart : ∀ c cs, rest = c :: cs → c ∉ leadingWords line := by
    intro c cs hcs hmem
    have hc := hrest c cs hcs
    rw [hwords c hmem] at hc
    cases hc
  have hopen : ∀ c cs, leadingWords line = c :: cs → Text.isSpace c = false := by
    intro c cs hcs
    rw [hcs,List.cons_append] at hparts
    exact Text.isSpace_of_strip hparts
  refine ⟨rest,hparts,?_,?_⟩
  · rw [hparts]
    exact Text.stripLeftOf_append (fun c hc => hc) hapart
  · rw [hparts]
    exact Text.strip_stripLeftOf_strip hopen hapart

/-- Whether a line is a header depends on what follows the name, and on the line above. -/
theorem Follows.isHeader_iff (h : Follows line name rest) : isHeader name line previous = true ↔
    (rest.strip = [] ∨ rest.strip = ":".toList) ∧
      (Text.isBlank previous = true ∨ ∃ c ∈ paragraphEnds, previous.strip.getLast? = some c) := by
  simp only [isHeader,h.strippedTaken,Bool.and_eq_true,Bool.or_eq_true,beq_iff_eq,List.isEmpty_iff,Text.isBlank,
    Option.any_eq_true,List.contains_iff_mem]
  refine and_congr_right fun _ => or_congr_right ⟨?_,?_⟩
  · rintro ⟨c,hlast,hc⟩
    exact ⟨c,hc,hlast⟩
  · rintro ⟨c,hc,hlast⟩
    exact ⟨c,hlast,hc⟩

end Section

namespace Outcome

variable {r : Rule} {rs : List Rule} {a b : Outcome}

def about (o : Outcome) (r : Rule) : List Finding := o.findings.filter (·.rule = r)

theorem about_append (ha : a.IsComplete) : (a ++ b).about r = a.about r ++ b.about r := by
  change (Outcome.append a b).about r = _
  unfold Outcome.append
  rw [show a.fault = none from ha]
  exact List.filter_append _ _

theorem about_of_among (h : Among rs a.findings) (hr : r ∉ rs) : a.about r = [] := by
  refine List.filter_eq_nil_iff.mpr fun f hf => ?_
  rw [decide_eq_true_eq]
  rintro rfl
  exact hr (h f hf)

theorem about_ofList {findings : List Finding} (h : Among [r] findings) : (ofList findings).about r = findings := by
  refine List.filter_eq_self.mpr fun f hf => ?_
  rw [decide_eq_true_eq]
  exact List.mem_singleton.mp (h f hf)

end Outcome

namespace Check.Sections

open Outcome DocLint.Section

variable {subject : Subject} {indent rest : Text} {s : Section}

/-- A check of a section: what both styles have in common, what is found in the header, and what is found
about parameters. -/
theorem about_section {names : List Text} {findings : List Finding} {parameters : Outcome} {r : Rule}
    (hr : r ∉ commonRules) (hfindings : Among [r] findings) (hparameters : Among [.D417] parameters.findings)
    (hne : r ≠ .D417) :
    (commonSection names indent s ++ (Outcome.ofList findings ++ parameters)).about r = findings := by
  rw [about_append (commonSection_complete _ _ _),about_append (isComplete_ofList _),
    about_of_among (commonSection_among names indent s) hr,about_ofList hfindings,
    about_of_among hparameters (by simpa using hne),List.append_nil]
  rfl

theorem about_numpySection [Resources] (h : Follows s.line s.name rest) : (numpySection subject indent s).about .D406 =
    if rest = [] then [] else [Rule.D406.with [s.name.title, s.line.strip]] := by
  unfold numpySection
  refine (about_section (by decide) ?_ ?_ (by decide)).trans ?_
  · exact among_ite among_nil (by simp)
  · split
    · exact Outcome.ofExcept_among fun findings hf => missingParameters_among hf
    · exact among_nil
  · simp only [headerSuffix,h.taken,List.isEmpty_iff]

theorem about_googleSection [Resources] (h : Follows s.line s.name rest) : (googleSection subject indent s).about .D416 =
    if rest = ":".toList then [] else [Rule.D416.with [s.name.title ++ ":".toList, s.line.strip]] := by
  unfold googleSection
  refine (about_section (by decide) ?_ ?_ (by decide)).trans ?_
  · exact among_ite among_nil (by simp)
  · split
    · refine Outcome.ofExcept_among fun findings hf => ?_
      obtain ⟨names,-,hf⟩ := exists_of_bind_ok hf
      exact missingParameters_among hf
    · exact among_nil
  · simp only [headerSuffix,h.taken,beq_iff_eq]

/-- On every line, the words with which it opens are taken off as a set of characters exactly once: what is left
is what follows them. So whether the line is a header depends on what follows the name; a section in the numpy
style is found fault with if something does, one in the google style unless it is a colon. -/
theorem header_suffix [Resources] (names lines : List Text) :
    (∀ line, ∃ rest, Follows line (leadingWords line) rest ∧ ∀ previous,
      isHeader (leadingWords line) line previous = true ↔ (rest.strip = [] ∨ rest.strip = ":".toList) ∧
        (Text.isBlank previous = true ∨ ∃ c ∈ paragraphEnds, previous.strip.getLast? = some c)) ∧
    ∃ found, sectionsOf? names lines = some found ∧ ∀ s ∈ found,
      ∃ rest, Follows s.line s.name rest ∧ headerSuffix s = rest ∧ ∀ subject indent,
        (numpySection subject indent s).about .D406 =
          (if rest = [] then [] else [Rule.D406.with [s.name.title, s.line.strip]]) ∧
        (googleSection subject indent s).about .D416 =
          if rest = ":".toList then [] else [Rule.D416.with [s.name.title ++ ":".toList, s.line.strip]] := by
  constructor
  · intro line
    obtain ⟨rest,h⟩ := follows_leadingWords line
    exact ⟨rest,h,fun previous => h.isHeader_iff⟩
  · refine ⟨_,sectionsOf_eq names lines,fun s hs => ?_⟩
    have hname := ((divides names lines).header s hs).2.1
    obtain ⟨rest,h⟩ := follows_leadingWords s.line
    rw [← hname] at h
    exact ⟨rest,h,h.taken,fun subject indent => ⟨about_numpySection h,about_googleSection h⟩⟩

open Resources.Builtin

/-- A colon behind the name is found in the one style, and not in the other. -/
theorem header_suffix_returns : ∃ found s, sectionsOf? numpyNames ["".toList, "  Returns: ".toList] = some found ∧
    s ∈ found ∧ headerSuffix s = ":".toList ∧ ∀ subject indent,
      (numpySection subject indent s).about .D406 = [Rule.D406.with ["Returns".toList, "Returns:".toList]] ∧
      (googleSection subject indent s).about .D416 = [] := by
  have hread : (sectionsOf? numpyNames ["".toList, "  Returns: ".toList]).map
      (·.map fun s => (s.name.title, s.line.strip, headerSuffix s)) =
        some [("Returns".toList, "Returns:".toList, ":".toList)] := by
    decide +kernel
  obtain ⟨found,hfound,hsections⟩ := (header_suffix numpyNames ["".toList, "  Returns: ".toList]).2
  rw [hfound,Option.map_some,Option.some.injEq] at hread
  obtain ⟨s,hs,hparts⟩ := List.mem_map.mp (hread ▸ List.mem_singleton_self _)
  obtain ⟨htitle,hline,hsuffix⟩ : s.name.title = "Returns".toList ∧ s.line.strip = "Returns:".toList ∧
      headerSuffix s = ":".toList := by simpa only [Prod.mk.injEq] using hparts
  obtain ⟨rest,-,hrest,hreport⟩ := hsections s hs
  obtain rfl := hsuffix.symm.trans hrest
  refine ⟨found,s,hfound,hs,hsuffix,fun subject indent => ?_⟩
  obtain ⟨hnumpy,hgoogle⟩ := hreport subject indent
  rw [if_neg (by decide),htitle,hline] at hnumpy
  exact ⟨hnumpy,hgoogle.trans (if_pos rfl)⟩

example : isHeader (leadingWords "Returns :".toList) "Returns :".toList [] = true ∧
    isHeader (leadingWords "Returns, if any".toList) "Returns, if any".toList [] = false := by
  decide +kernel

end Check.Sections

end DocLint
