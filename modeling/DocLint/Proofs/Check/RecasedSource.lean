import DocLint.Proofs.Answer
import DocLint.Proofs.Check.SameReport
import DocLint.Proofs.Check.Surroundings
import DocLint.Proofs.Outline.Noted
import DocLint.Resources.Builtin

/-!
A source text with the letter before the quotes of one docstring in the other case. The definitions are the
same but for this docstring, and the reports are the same but for the rule about backslashes, as long as the
checks that go back to the source lines find the docstrings where they are.
-/

set_option autoImplicit false

namespace DocLint

open Outline Check.Layout

variable {file source : Text} {m m' : Module} {s s' : Subject} {d d' : Docstring} {t : Token} {c q : Char}
  {rest : Text} {k : Nat}

/-! ### Outlines -/

theorem Outline.State.ofText_of_cons {u : Token} {us : List Token} (h : (Scan.ofText source).tokens = u :: us) :
    State.ofText source = .ok { rest := u :: us, line := u.start.row } := by
  unfold State.ofText
  dsimp only
  rw [h]
  rfl

theorem Outline.ofText_ran [Resources] (h : Module.ofText file source = .ok m) :
    Grammar.accepts source = true ∧ ∃ s s', State.ofText source = .ok s ∧
      Outline.module file source.lines s = .ok m s' ∧ (Outline.ofText file source).2 = s'.notes.reverse := by
  unfold Module.ofText at h
  generalize hp : Outline.ofText file source = p at h ⊢
  unfold Outline.ofText at hp
  split at hp
  · subst hp
    cases h
  · rename_i haccepts
    split at hp
    · subst hp
      cases h
    · rename_i s hs
      split at hp
      · rename_i s' hrun
        subst hp
        cases h
        exact ⟨by simpa using haccepts,s,s',hs,hrun,rfl⟩
      · subst hp
        cases h

theorem Outline.ofText_of_run [Resources] {s s' : State} (haccepts : Grammar.accepts source = true)
    (hs : State.ofText source = .ok s) (hrun : Outline.module file source.lines s = .ok m s') :
    Module.ofText file source = .ok m := by
  unfold Module.ofText Outline.ofText
  rw [haccepts,hs]
  dsimp only
  rw [show (Outline.module file source.lines).run s = .ok m s' from hrun]
  rfl

/-- A docstring that is noted is one of the tokens. -/
theorem Outline.mem_tokens_of_noted [Resources] (hm : Module.ofText file source = .ok m)
    (hnoted : Note.docstring (some t) ∈ (Outline.ofText file source).2) (hkind : t.kind = .string)
    (hquoted : Lexeme.IsQuoted t.value) : t ∈ (Scan.ofText source).tokens := by
  obtain ⟨-,s,s',hs,hrun,hnotes⟩ := ofText_ran hm
  rw [hnotes,List.mem_reverse] at hnoted
  by_contra ht
  have hspoiled : Spoiled t s := by
    cases htokens : (Scan.ofText source).tokens with
    | nil =>
      unfold State.ofText at hs
      dsimp only at hs
      rw [htokens] at hs
      cases hfault : (Scan.ofText source).fault with
      | some fault =>
        rw [hfault] at hs
        cases hs
      | none =>
        rw [hfault] at hs
        cases hs
        exact ⟨by simp,by simp⟩
    | cons u us =>
      rw [State.ofText_of_cons htokens] at hs
      cases hs
      exact ⟨htokens ▸ ht,by simp⟩
  exact ((module_parallel (v := t.value) ⟨hkind,hquoted,hquoted⟩ file source.lines source.lines).spoils s m s'
    hspoiled hrun).unread hnoted

theorem Module.ofText_recased [Resources] (hm : Module.ofText file source = .ok m)
    (hnoted : Note.docstring (some t) ∈ (Outline.ofText file source).2) (hkind : t.kind = .string)
    (hvalue : t.value = c :: q :: rest) (hc : c ∈ plainLetters) (hq : Lexeme.isQuote q = true)
    (haccepts : Grammar.accepts (source.recased (offset source t.start)) = true) :
    ∃ m', Module.ofText file (source.recased (offset source t.start)) = .ok m' ∧
      m'.source = (source.recased (offset source t.start)).lines ∧
      List.Forall₂ (Subject.Matches (Echoes t (otherCase c :: q :: rest))) m.subjects m'.subjects := by
  have hquoted {c : Char} (hc : c ∈ plainLetters) : Lexeme.IsQuoted (c :: q :: rest) :=
    Lexeme.isQuoted_of_literalMark (literalMark?_letter hc hq)
  have hspoken : Respoken t (otherCase c :: q :: rest) := ⟨hkind,hvalue ▸ hquoted hc,hquoted (otherCase_mem hc)⟩
  have ht := mem_tokens_of_noted hm hnoted hkind hspoken.quoted
  obtain ⟨-,s,s₁,hs,hrun,hnotes⟩ := ofText_ran hm
  rw [hnotes,List.mem_reverse] at hnoted
  have htwins := (Scan.ofText_recased ht hkind).1
  rw [show t.value.recased 0 = otherCase c :: q :: rest by rw [hvalue]; rfl] at htwins
  have honce := Scan.ofText_once ht hkind
  cases htokens : (Scan.ofText source).tokens with
  | nil => simp [htokens] at ht
  | cons u us =>
    rw [htokens] at htwins honce
    obtain ⟨u',us',htwin,hus,htokens'⟩ := List.forall₂_cons_left_iff.mp htwins
    rw [State.ofText_of_cons htokens] at hs
    cases hs
    have habreast : Abreast t (otherCase c :: q :: rest) { rest := u :: us, line := u.start.row }
        { rest := u' :: us', line := u'.start.row } :=
      ⟨⟨.cons htwin hus,honce,congrArg Position.row htwin.start,rfl,rfl,rfl,rfl,rfl⟩,fun _ => by simp⟩
    rcases (module_parallel hspoken file source.lines (source.recased (offset source t.start)).lines).follows _ _
      habreast m s₁ hrun with ⟨m',s₁',hrun',-,hsource,hmatches⟩ | hspoiled
    · exact ⟨m',ofText_of_run haccepts (State.ofText_of_cons htokens') hrun',hsource,hmatches⟩
    · exact absurd hnoted hspoiled.unread

/-! ### Source lines -/

theorem isBlankOrComment_folded (line : Text) : isBlankOrComment line.folded = isBlankOrComment line := by
  have hplain : ∀ w ∈ ["#".toList], ∀ x ∈ w, x ∉ plainLetters := not_mem_of_words (by decide)
  unfold isBlankOrComment
  dsimp only
  rw [Text.strip_folded,Text.isPrefixOf_folded (hplain _ List.mem_cons_self)]
  cases line.strip <;> rfl

theorem excerpt_folded (lines : List Text) (start stop : Nat) :
    excerpt (lines.map Text.folded) start stop = (excerpt lines start stop).folded := by
  have hblank : isBlankOrComment ∘ Text.folded = isBlankOrComment := funext isBlankOrComment_folded
  unfold excerpt
  dsimp only
  rw [← List.map_take,← List.map_drop,← List.map_reverse,List.dropWhile_map,hblank,← List.map_reverse]
  exact List.map_flatten.symm

/-- The lines of a subject, out of the whole text. -/
theorem Subject.source_eq (h : s.root.source = source.lines) :
    s.source = (source.take (offset source ⟨s.start, 0⟩ + s.source.length)).drop (offset source ⟨s.start, 0⟩) := by
  rw [offset,← List.length_append,← List.prefix_iff_eq_take.mp (Subject.source_prefix h),List.drop_left]

theorem Subject.source_recased (hroot : s.root.source = source.lines) (hroot' : s'.root.source = (source.recased k).lines)
    (hbare : s'.bare = s.bare) : s'.source =
      if offset source ⟨s.start, 0⟩ ≤ k then s.source.recased (k - offset source ⟨s.start, 0⟩) else s.source := by
  have hstart : s'.start = s.start := Subject.bare_congr (fun s => by cases s <;> rfl) hbare
  have hstop : s'.stop = s.stop := Subject.bare_congr (fun s => by cases s <;> rfl) hbare
  have hlength : s'.source.length = s.source.length := by
    have hfolded : s'.source.folded = s.source.folded := by
      rw [Subject.source,Subject.source,← excerpt_folded,← excerpt_folded,hroot,hroot',hstart,hstop,← Text.lines_folded,
        ← Text.lines_folded,Text.folded_recased]
    rw [← Text.folded_length,hfolded,Text.folded_length]
  rw [Subject.source_eq hroot',hlength,hstart,offset_recased,Text.take_drop_recased,← Subject.source_eq hroot]

/-! ### Surroundings -/

theorem Text.splitOn_folded (t : Text) : Text.splitOn '\n' t.folded = (Text.splitOn '\n' t).map Text.folded := by
  induction t with
  | nil => rfl
  | cons c t ih =>
    rw [Text.folded_cons,Text.splitOn,Text.splitOn,ih]
    cases Text.splitOn '\n' t with
    | nil => rfl
    | cons p ps =>
      simp only [List.map_cons,foldMark_eq_iff (x := '\n') (by decide)]
      split <;> rfl

theorem Text.isBlank_folded (t : Text) : Text.isBlank t.folded = Text.isBlank t := by
  rw [Text.isBlank,Text.strip_folded,Text.isBlank]
  cases t.strip <;> rfl

theorem Text.stripLeft_folded (t : Text) : t.folded.stripLeft = t.stripLeft.folded :=
  Text.folded_dropWhile Text.isSpace_foldMark

theorem opensDefinition_folded (after : Text) : opensDefinition after.folded = opensDefinition after := by
  have hplain : ∀ w ∈ "@".toList :: definitionWords, ∀ x ∈ w, x ∉ plainLetters := not_mem_of_words (by decide)
  have hspace (t : Text) : t.folded.head?.map Text.isSpace = t.head?.map Text.isSpace := by
    cases t <;> simp
  unfold opensDefinition
  dsimp only
  rw [Text.stripLeft_folded,Text.folded_length,Text.folded_length,Text.isPrefixOf_folded (hplain _ List.mem_cons_self)]
  congr 2
  rw [Bool.eq_iff_iff,List.any_eq_true,List.any_eq_true]
  refine exists_congr fun w => and_congr_right fun hw => ?_
  rw [Text.isPrefixOf_folded (hplain w (List.mem_cons_of_mem _ hw)),Text.folded_drop,hspace]

theorem sameSurroundings_of_folded {before after after' : Text} (h : after'.folded = after.folded) :
    Check.SameSurroundings ⟨before, after⟩ ⟨before, after'⟩ := by
  have hsame {α : Type} {f : Text → α} (hf : ∀ t : Text, f t.folded = f t) : f after' = f after := by
    rw [← hf after',h,hf]
  have hlines (t : Text) : (Surroundings.mk before t.folded).linesAfter = (Surroundings.mk before t).linesAfter.map Text.folded := by
    simp only [Surroundings.linesAfter,Text.splitOn_folded,List.map_drop]
  have hblank : Text.isBlank ∘ Text.folded = Text.isBlank := funext Text.isBlank_folded
  refine ⟨rfl,rfl,hsame (f := fun t => (Surroundings.mk before t).blanksAfter) fun t => ?_,
    hsame (f := fun t => (Surroundings.mk before t).endsBlank) fun t => ?_,hsame opensDefinition_folded⟩
  · simp only [Surroundings.blanksAfter,hlines,leadingBlanks,List.takeWhile_map,hblank,List.length_map]
  · simp only [Surroundings.endsBlank,hlines,List.all_map,hblank]

theorem Text.recased_append {a b : Text} {n : Nat} (h : a.length ≤ n) :
    Text.recased (a ++ b) n = a ++ Text.recased b (n - a.length) := by
  rw [Text.recased,List.modify_eq_take_drop,List.take_append,List.drop_append,Text.recased,List.modify_eq_take_drop,
    List.take_of_length_le h,List.drop_eq_nil_of_le h,List.append_assoc,List.nil_append]

/-- A letter behind the text that is looked for. -/
theorem Text.cut_recased_behind {sep t : Text} {n : Nat} (hsep : sep ≠ [])
    (h : ((Text.cut sep t).1 ++ sep).length ≤ n) :
    (Text.cut sep (t.recased n)).1 = (Text.cut sep t).1 ∧
      Text.folded (Text.cut sep (t.recased n)).2 = Text.folded (Text.cut sep t).2 := by
  unfold Text.cut at h ⊢
  cases hcut : Text.cut? sep t with
  | none =>
    rw [hcut,Option.getD_none,List.length_append] at h
    rw [Text.recased_of_le (Nat.le_of_add_right_le h),hcut]
    exact ⟨rfl,rfl⟩
  | some p =>
    obtain ⟨a,b⟩ := p
    obtain ⟨rfl,hfirst⟩ := (Text.cut?_eq_some_iff hsep).mp hcut
    rw [hcut,Option.getD_some] at h
    rw [Text.recased_append h,(Text.cut?_eq_some_iff hsep).mpr ⟨rfl,hfirst⟩]
    exact ⟨rfl,Text.folded_recased⟩

/-- The first letter of the text that is looked for, if nothing before is like this text. -/
theorem Text.cut_recased_first {t : Text} (h : ¬ Text.folded (c :: rest) <:+:
      (Text.folded ((Text.cut (c :: rest) t).1 ++ c :: rest)).dropLast) :
    Text.cut (otherCase c :: rest) (t.recased (Text.cut (c :: rest) t).1.length) = Text.cut (c :: rest) t := by
  have hfolded : Text.folded (otherCase c :: rest) = Text.folded (c :: rest) := by
    simp [foldMark_otherCase]
  have hwithin {u : Text} (hu : otherCase c :: rest <:+: u) : Text.folded (c :: rest) <:+: u.folded := by
    rw [← hfolded]
    exact hu.map foldMark
  unfold Text.cut at h ⊢
  cases hcut : Text.cut? (c :: rest) t with
  | none =>
    rw [hcut,Option.getD_none] at h
    rw [Option.getD_none,Text.recased_of_le (Nat.le_refl _)]
    cases hcut' : Text.cut? (otherCase c :: rest) t with
    | none => rfl
    | some p =>
      refine absurd (List.IsInfix.trans (hwithin (u := t) ?_) (List.IsPrefix.isInfix ?_)) h
      · rw [((Text.cut?_eq_some_iff (List.cons_ne_nil _ _)).mp hcut').1]
        exact List.infix_append _ _ _
      · rw [Text.folded_append,List.dropLast_append_of_ne_nil (by simp)]
        exact List.prefix_append _ _
  | some p =>
    obtain ⟨a,b⟩ := p
    obtain ⟨rfl,-⟩ := (Text.cut?_eq_some_iff (List.cons_ne_nil _ _)).mp hcut
    rw [hcut,Option.getD_some] at h
    have ht : Text.recased (a ++ c :: rest ++ b) a.length = a ++ otherCase c :: rest ++ b := by
      rw [List.append_assoc,Text.recased_append (Nat.le_refl _),Nat.sub_self,List.append_assoc]
      rfl
    rw [Option.getD_some,ht,(Text.cut?_eq_some_iff (List.cons_ne_nil _ _)).mpr ⟨rfl,fun hu => h ?_⟩,Option.getD_some]
    have hdrop : Text.folded (a ++ otherCase c :: rest).dropLast = (Text.folded (a ++ c :: rest)).dropLast := by
      rw [Text.folded_append,← hfolded,← Text.folded_append]
      exact List.map_dropLast
    rw [← hdrop]
    exact hwithin hu

/-! ### Subjects -/

/-- Where the lines of a subject begin in the text. -/
def Subject.first (source : Text) (s : Subject) : Nat := offset source ⟨s.start, 0⟩

/-- What the checks look for in the lines of a subject does not meet the letter at a place of the text by
chance: the parameters of a function are read across it as across the letter before quotes, a docstring that
stays the same is found with the letter neither in it nor before it, and the docstring that does not is found
at the letter, with nothing like it before but for the case of such letters. -/
structure Subject.Legible [Resources] (source : Text) (k : Nat) (s s' : Subject) : Prop where
  signature : ∀ d n, s.definition? = some d → d.kind.isClass = false →
    s.first source + (s.source.takeWhile Text.isSpace).length + n = k → n < s.source.stripLeft.length →
    Grammar.opensStringAt s.source.stripLeft n = true
  kept : ∀ d, s.docstring = some d → s'.docstring = some d →
    k < s.first source ∨ s.first source + ((surroundings s d).before ++ d.text).length ≤ k
  moved : ∀ d, s.docstring = some d → s'.docstring ≠ some d →
    s.first source + (surroundings s d).before.length = k ∧
      ¬ d.text.folded <:+: (Text.folded ((surroundings s d).before ++ d.text)).dropLast

theorem Text.stripLeft_eq_drop (t : Text) : t.stripLeft = t.drop (t.takeWhile Text.isSpace).length := by
  have hdrop : (t.takeWhile Text.isSpace ++ t.dropWhile Text.isSpace).drop (t.takeWhile Text.isSpace).length =
      t.dropWhile Text.isSpace := List.drop_left
  rw [List.takeWhile_append_dropWhile] at hdrop
  exact hdrop.symm

theorem Text.stripLeft_recased (t : Text) (n : Nat) : (t.recased n).stripLeft =
    if (t.takeWhile Text.isSpace).length ≤ n then t.stripLeft.recased (n - (t.takeWhile Text.isSpace).length)
    else t.stripLeft := by
  have hlength : ((t.recased n).takeWhile Text.isSpace).length = (t.takeWhile Text.isSpace).length := by
    rw [← Text.folded_length,← Text.folded_takeWhile Text.isSpace_foldMark,Text.folded_recased,
      Text.folded_takeWhile Text.isSpace_foldMark,Text.folded_length]
  rw [Text.stripLeft_eq_drop,hlength,Text.stripLeft_eq_drop,Text.recased]
  split
  · exact List.drop_modify_of_ge _ _ _ _ (by assumption)
  · exact List.drop_modify_of_lt _ _ _ _ (by omega)

theorem Subject.source_getElem? {n : Nat} (h : s.root.source = source.lines) (hn : n < s.source.length) :
    s.source[n]? = source[s.first source + n]? := by
  conv_lhs => rw [Subject.source_eq h]
  rw [List.getElem?_drop,List.getElem?_take_of_lt (by omega)]
  rfl

namespace Subject.Legible

theorem parameterNames_eq [Resources] (h : s.Legible source k s') (hroot : s.root.source = source.lines)
    (hroot' : s'.root.source = (source.recased k).lines) (hbare : s'.bare = s.bare) (hk : source[k]? = some c)
    (hc : c ∈ plainLetters) {x : Definition} (hx : s.definition? = some x) (hclass : x.kind.isClass = false) :
    Grammar.parameterNamesOf s'.source.stripLeft = Grammar.parameterNamesOf s.source.stripLeft := by
  rw [Subject.source_recased hroot hroot' hbare]
  split
  · rename_i hfirst
    rw [Text.stripLeft_recased]
    split
    · rename_i hspace
      generalize hn : k - offset source ⟨s.start, 0⟩ - (s.source.takeWhile Text.isSpace).length = n
      have hplace : s.first source + (s.source.takeWhile Text.isSpace).length + n = k := by
        unfold Subject.first
        omega
      by_cases hlt : n < s.source.stripLeft.length
      · have hletter : s.source.stripLeft[n]? = some c := by
          rw [Text.stripLeft_eq_drop,List.length_drop] at hlt
          rw [Text.stripLeft_eq_drop,List.getElem?_drop,Subject.source_getElem? hroot (by omega),← Nat.add_assoc,
            hplace,hk]
        unfold Grammar.parameterNamesOf
        rw [Grammar.parse?_recased hletter hc (h.signature x n hx hclass hplace hlt)]
      · rw [Text.recased_of_le (by omega)]
    · rfl
  · rfl

theorem missingParameters_eq [Resources] (h : s.Legible source k s') (hroot : s.root.source = source.lines)
    (hroot' : s'.root.source = (source.recased k).lines) (hbare : s'.bare = s.bare) (hk : source[k]? = some c)
    (hc : c ∈ plainLetters) (documented : List Text) :
    Check.Sections.missingParameters documented s' = Check.Sections.missingParameters documented s := by
  cases s with
  | module m =>
    cases s' with
    | module m' => rfl
    | definition _ _ _ => cases hbare
  | definition m ancestors x =>
    cases s' with
    | module m' => cases hbare
    | definition m' ancestors' x' =>
      obtain ⟨-,-,hx⟩ := Subject.definition.inj hbare
      have hkind : x'.kind = x.kind := show x'.bare.kind = x.bare.kind by rw [hx]
      have hmissing (names : List Text) : Check.Sections.undocumented documented names x' =
          Check.Sections.undocumented documented names x :=
        show Check.Sections.undocumented documented names x'.bare = Check.Sections.undocumented documented names x.bare by
          rw [hx]
      unfold Check.Sections.missingParameters
      dsimp only
      rw [hkind]
      split
      · rfl
      · rename_i hclass
        rw [h.parameterNames_eq hroot hroot' hbare hk hc rfl (by simpa using hclass)]
        simp only [hmissing]

theorem corresponds [Resources] (h : s.Legible source k s') (hroot : s.root.source = source.lines)
    (hroot' : s'.root.source = (source.recased k).lines) (hk : source[k]? = some c) (hc : c ∈ plainLetters)
    (hq : Lexeme.isQuote q = true) (hvalue : t.value = c :: q :: rest) (hkind : t.kind = .string)
    (hmatches : Subject.Matches (Echoes t (otherCase c :: q :: rest)) s s')
    (hnonempty : ∀ d, s.docstring = some d → d.text ≠ []) : s.Corresponds s' := by
  obtain ⟨hbare,hdocstring⟩ := hmatches
  have hsource := Subject.source_recased hroot hroot' hbare
  have hdoc (v : Text) : docstringOf { t with value := v } = some ⟨v, t.start.row, t.stop.row⟩ := if_pos hkind
  refine ⟨hbare,fun hnone => ?_,fun d hd => ?_⟩
  · rcases hdocstring with hsame | ⟨hecho,-⟩
    · exact hsame.trans hnone
    · rw [hnone,hdoc t.value] at hecho
      cases hecho
  · have hparameters := h.missingParameters_eq hroot hroot' hbare hk hc
    by_cases hsame : s'.docstring = some d
    · refine ⟨d,hsame,.inl rfl,?_,hparameters⟩
      rcases h.kept d hd hsame with hbefore | hbehind
      · have hlt : ¬ offset source ⟨s.start, 0⟩ ≤ k := Nat.not_le_of_lt hbefore
        rw [if_neg hlt] at hsource
        unfold surroundings
        rw [hsource]
        exact sameSurroundings_of_folded rfl
      · have hle : offset source ⟨s.start, 0⟩ ≤ k := Nat.le_trans (Nat.le_add_right _ _) hbehind
        rw [if_pos hle] at hsource
        have hfar : ((Text.cut d.text s.source).1 ++ d.text).length ≤ k - offset source ⟨s.start, 0⟩ :=
          Nat.le_sub_of_add_le' hbehind
        obtain ⟨hcut,hafter⟩ := Text.cut_recased_behind (hnonempty d hd) hfar
        unfold surroundings
        rw [hsource]
        dsimp only
        rw [hcut]
        exact sameSurroundings_of_folded hafter
    · rcases hdocstring with hsame' | ⟨hecho,hrespelt⟩
      · exact absurd (hsame'.trans hd) hsame
      · rw [hd,hdoc t.value,hvalue] at hecho
        cases hecho
        rw [hdoc] at hrespelt
        refine ⟨_,hrespelt,.inr (.mk hc hq),?_,hparameters⟩
        obtain ⟨hplace,halone⟩ := h.moved _ hd hsame
        have hle : offset source ⟨s.start, 0⟩ ≤ k := Nat.le_trans (Nat.le_add_right _ _) (Nat.le_of_eq hplace)
        have hn : k - offset source ⟨s.start, 0⟩ = (Text.cut (c :: q :: rest) s.source).1.length :=
          Nat.sub_eq_of_eq_add' hplace.symm
        rw [if_pos hle,hn] at hsource
        unfold surroundings
        rw [hsource,Text.cut_recased_first halone]
        exact sameSurroundings_of_folded rfl

end Subject.Legible

/-! ### Reports -/

theorem Located.getElem?_start (h : Located source.lines t) (hvalue : t.value = c :: rest) :
    source[offset source t.start]? = some c := by
  have hget := congrArg (·[0]?) h.value_eq
  have hlt : offset source t.start < offset source t.stop := by
    rw [h.offset_stop,hvalue]
    exact Nat.lt_add_of_pos_right (Nat.succ_pos _)
  simp only [hvalue,List.getElem?_cons_zero,List.getElem?_drop,Nat.add_zero,List.getElem?_take_of_lt hlt] at hget
  exact hget.symm

/-- Every docstring is noted with its token. If the letter before its quotes changes its case in the text, where
the grammar comes to it as to such a letter, the text is accepted as before, with the same definitions but for
this docstring. If moreover the lines of all subjects are legible, then the same is reported for all rules but
the one about backslashes, and for this one too if there is no backslash to be found or the letter is not the
one for raw text. Otherwise the capital letter is found fault with and the small one is not. -/
theorem checkSource_recased [Resources] (o : CheckOptions) (file source : Text) (m : Module)
    (hm : Module.ofText file source = .ok m) :
    (∀ s ∈ m.subjects, ∀ d, s.docstring = some d →
      ∃ t, Note.docstring (some t) ∈ (Outline.ofText file source).2 ∧ docstringOf t = some d) ∧
    ∀ t c q rest, Note.docstring (some t) ∈ (Outline.ofText file source).2 → t.kind = .string →
      t.value = c :: q :: rest → c ∈ plainLetters → Lexeme.isQuote q = true →
      Grammar.opensStringAt source (offset source t.start) = true →
      ∃ m', Module.ofText file (source.recased (offset source t.start)) = .ok m' ∧
        List.Forall₂ (Subject.Matches (Echoes t (otherCase c :: q :: rest))) m.subjects m'.subjects ∧
        ((∀ x ∈ m.subjects.zip m'.subjects, x.1.Legible source (offset source t.start) x.2) →
          ∃ verdict verdict', checkSource o file source = .ok verdict ∧
            checkSource o file (source.recased (offset source t.start)) = .ok verdict' ∧
            verdict'.told (· ≠ .D301) = verdict.told (· ≠ .D301) ∧
            (Check.Wording.hasBackslash t.value = false ∨ c = 'u' ∨ c = 'U' →
              verdict'.told (fun _ => true) = verdict.told fun _ => true) ∧
            (Check.Wording.hasBackslash t.value = true → c = 'r' ∨ c = 'R' →
              ∀ x ∈ m.subjects.zip m'.subjects, x.2.docstring ≠ x.1.docstring →
                Check.backslashes.run o x.1 = .ofList (if c = 'R' then [Rule.D301.plain] else []) ∧
                Check.backslashes.run o x.2 = .ofList (if c = 'r' then [Rule.D301.plain] else []))) := by
  obtain ⟨haccepts,st,st',-,hrun,hnotes⟩ := Outline.ofText_ran hm
  have hsource := module_source hrun
  refine ⟨fun s hs d hd => ?_,fun t c q rest hnoted hkind hvalue hc hq hopens => ?_⟩
  · obtain ⟨t,ht,hdoc⟩ := (module_tells file source.lines st m st' hrun).2 s hs d hd
    exact ⟨t,by rwa [hnotes,List.mem_reverse],hdoc⟩
  · have hquoted : Lexeme.IsQuoted t.value := hvalue ▸ Lexeme.isQuoted_of_literalMark (literalMark?_letter hc hq)
    have hlocated := Scan.located_ofText source t (Outline.mem_tokens_of_noted hm hnoted hkind hquoted)
    have hk := hlocated.getElem?_start hvalue
    have haccepts' : Grammar.accepts (source.recased (offset source t.start)) = true := by
      unfold Grammar.accepts at haccepts ⊢
      rwa [Grammar.parse?_recased hk hc hopens]
    obtain ⟨m',hm',hsource',hmatches⟩ := Module.ofText_recased hm hnoted hkind hvalue hc hq haccepts'
    obtain ⟨hlength,hpairs⟩ := List.forall₂_iff_zip.mp hmatches
    refine ⟨m',hm',hmatches,fun hlegible => ?_⟩
    have hcorresponds {x : Subject × Subject} (hx : x ∈ m.subjects.zip m'.subjects) : x.1.Corresponds x.2 := by
      obtain ⟨hx₁,hx₂⟩ := List.of_mem_zip hx
      refine (hlegible x hx).corresponds (by rw [Module.root_of_mem hx₁,hsource])
        (by rw [Module.root_of_mem hx₂,hsource']) hk hc hq hvalue hkind (hpairs hx) fun d hd => ?_
      obtain ⟨-,i,u,hu,hplaced,-⟩ := Subject.docstring_located hm hx₁ hd
      obtain ⟨mark,q',rest',huvalue,-⟩ := hplaced.quoted hu.isString
      simp [hu.docstring,huvalue]
    -- A docstring that changes is the one that is read from the token.
    have hchanged {x : Subject × Subject} (hx : x ∈ m.subjects.zip m'.subjects) (hne : x.2.docstring ≠ x.1.docstring) :
        x.1.docstring = some ⟨c :: q :: rest, t.start.row, t.stop.row⟩ ∧
          x.2.docstring = some ⟨otherCase c :: q :: rest, t.start.row, t.stop.row⟩ := by
      rcases (hpairs hx).docstring with hsame | ⟨h,h'⟩
      · exact absurd hsame hne
      · rw [docstringOf,if_pos hkind,hvalue] at h
        rw [docstringOf,if_pos hkind] at h'
        exact ⟨h,h'⟩
    refine ⟨m.check o,m'.check o,by rw [checkSource,hm]; rfl,by rw [checkSource,hm']; rfl,?_,fun hplain => ?_,
      fun hslash hraw x hx hne => ?_⟩
    · refine CheckOptions.applyAll_told (List.forall₂_iff_zip.mpr ⟨hlength,fun {x x'} hx => ?_⟩)
      exact ⟨hcorresponds hx,.inr (by decide)⟩
    · refine CheckOptions.applyAll_told (List.forall₂_iff_zip.mpr ⟨hlength,fun {x x'} hx => ?_⟩)
      refine ⟨hcorresponds hx,.inl ((hcorresponds hx).backslashes_eq fun d hd hne hrawd => ?_)⟩
      have hd' := (hchanged hx (hd ▸ hne)).1
      rw [hd] at hd'
      cases hd'
      obtain ⟨hslash,hletter⟩ := hrawd
      rw [hvalue] at hplain
      rcases hplain with hnone | rfl | rfl
      · exact Bool.false_ne_true (hnone.symm.trans hslash)
      · simp at hletter
      · simp at hletter
    · obtain ⟨hd,hd'⟩ := hchanged hx hne
      have hslash' : Check.Wording.hasBackslash (otherCase c :: q :: rest) = Check.Wording.hasBackslash (c :: q :: rest) :=
        Docstring.Respelt.hasBackslash_eq (d := ⟨c :: q :: rest, t.start.row, t.stop.row⟩) (.mk hc hq)
      rw [hvalue] at hslash
      rw [Check.run_backslashes_letter hd rfl hq,Check.run_backslashes_letter hd' rfl hq,hslash',hslash]
      rcases hraw with rfl | rfl <;> exact ⟨rfl,rfl⟩

/-- A function with a backslash in its raw docstring. -/
def digitText : Text := "def f():\n    r'''Find \\d.'''\n"

def digitToken : Token :=
  ⟨.string, "r'''Find \\d.'''", ⟨2, 4⟩, ⟨2, 19⟩, "    r'''Find \\d.'''\n"⟩

/-- What makes the lines of a subject legible whose docstring changes, to be computed. -/
def Subject.showsAt [Resources] (source : Text) (k : Nat) (s : Subject) : Bool :=
  (s.definition?.isNone || Grammar.opensStringAt s.source.stripLeft
    (k - (s.first source + (s.source.takeWhile Text.isSpace).length))) &&
  s.docstring.all fun d => s.first source + (surroundings s d).before.length == k &&
    decide (¬ d.text.folded <:+: (Text.folded ((surroundings s d).before ++ d.text)).dropLast)

theorem Subject.Legible.of_showsAt [Resources] (h : s.showsAt source k = true)
    (hchanges : ∀ d, s.docstring = some d → s'.docstring ≠ some d) : s.Legible source k s' := by
  rw [showsAt,Bool.and_eq_true,Bool.or_eq_true] at h
  obtain ⟨hsignature,hdocstring⟩ := h
  refine ⟨fun d n hd _ hn _ => ?_,fun d hd hsame => absurd hsame (hchanges d hd),fun d hd _ => ?_⟩
  · rw [hd] at hsignature
    rcases hsignature with hnone | hopens
    · cases hnone
    · rwa [← hn,Nat.add_sub_cancel_left] at hopens
  · rw [hd,Option.all_some,Bool.and_eq_true,beq_iff_eq,decide_eq_true_eq] at hdocstring
    exact hdocstring

open Resources.Builtin

theorem checkSource_recased_digits : ∃ verdict verdict', checkSource {} "a.py" digitText = .ok verdict ∧
    checkSource {} "a.py" "def f():\n    R'''Find \\d.'''\n".toList = .ok verdict' ∧
    verdict'.told (· ≠ .D301) = verdict.told (· ≠ .D301) := by
  have hplace : offset digitText digitToken.start = 13 := by decide +kernel
  have htext : digitText.recased 13 = "def f():\n    R'''Find \\d.'''\n".toList := by decide +kernel
  have hrun : (Module.ofText "a.py" digitText).toOption.any (fun m =>
      m.subjects.all fun s => s.showsAt digitText 13 && s.docstring.all (·.text.head? == some 'r')) = true := by
    decide +kernel
  have hnoted : Note.docstring (some digitToken) ∈ (Outline.ofText "a.py" digitText).2 := by decide +kernel
  have hopens : Grammar.opensStringAt digitText 13 = true := by decide +kernel
  have hrespelt : (Module.ofText "a.py" (digitText.recased 13)).toOption.all (fun m =>
      m.subjects.all fun s => s.docstring.all (·.text.head? == some 'R')) = true := by
    decide +kernel
  obtain ⟨m,hm,hshows⟩ := exists_of_any hrun
  rw [List.all_eq_true] at hshows
  obtain ⟨m',hm',-,hreports⟩ := (checkSource_recased {} "a.py" digitText m hm).2 digitToken 'r' '\'' _ hnoted rfl rfl
    (by decide) (by decide) (by rw [hplace]; exact hopens)
  rw [hplace] at hm' hreports
  rw [hm'] at hrespelt
  obtain ⟨verdict,verdict',hv,hv',htold,-⟩ := hreports fun x hx => by
    obtain ⟨hx₁,hx₂⟩ := List.of_mem_zip hx
    have hfirst := hshows x.1 hx₁
    rw [Bool.and_eq_true] at hfirst
    refine Subject.Legible.of_showsAt hfirst.1 fun d hd hd' => ?_
    have hsecond := List.all_eq_true.mp hrespelt x.2 hx₂
    rw [hd',Option.all_some,beq_iff_eq] at hsecond
    have hhead := hfirst.2
    rw [hd,Option.all_some,beq_iff_eq,hsecond] at hhead
    exact absurd hhead (by decide)
  rw [htext] at hv'
  exact ⟨verdict,verdict',hv,hv',htold⟩

/-- Behind a default value that differs from the docstring in the case of the letter only, the lines are not
legible: the capital docstring is found at the value, and the blank line counts as one behind it. -/
example :
    (checkSource {} [] "def test(x=R'''Doc.'''):\n\n    r'''Doc.'''\n".toList).toOption.any
      (·.violations.map (·.finding.rule) == [.D100,.D201,.D300]) = true ∧
    (checkSource {} [] "def test(x=R'''Doc.'''):\n\n    R'''Doc.'''\n".toList).toOption.any
      (·.violations.map (·.finding.rule) == [.D100,.D202,.D300]) = true := by
  constructor <;> decide +kernel

theorem checkSource_capital :
    (checkSource {} [] "r'\\d'\n".toList).toOption.any
      (·.violations.all (·.finding.rule != .D301)) = true ∧
    (checkSource {} [] "R'\\d'\n".toList).toOption.any
      (·.violations.any (·.finding.rule == .D301)) = true := by
  constructor <;> decide +kernel

end DocLint
