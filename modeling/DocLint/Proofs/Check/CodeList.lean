import Mathlib.Data.List.Infix
import DocLint.Proofs.Answer
import DocLint.Proofs.Exports
import DocLint.Proofs.Outline.Annotation
import DocLint.Resources.Builtin
import DocLint.Violation

/-!
Comments that list codes. The list is never taken apart: a code is switched off if it occurs anywhere in
its text. Codes end in three digits, so an occurrence ends with one of those listed; it need not begin
with it.
-/

set_option autoImplicit false

namespace DocLint

/-! ### Lists of codes -/

structure ListedCode where
  letters : Text
  digits : Text
  hasLetter : 1 ≤ letters.length
  fewLetters : letters.length ≤ 3
  threeDigits : digits.length = 3
  areCapitals : letters.all Text.isAsciiUpper = true
  areDigits : digits.all Text.isAsciiDigit = true

def ListedCode.text (x : ListedCode) : Text := x.letters ++ x.digits

structure CodeList where
  first : ListedCode
  others : List (Nat × ListedCode)

namespace CodeList

def members (l : CodeList) : List ListedCode := l.first :: l.others.map (·.2)

def behind : List (Nat × ListedCode) → Text
  | [] => []
  | (blanks, x) :: others => ',' :: (List.replicate blanks ' ' ++ (x.text ++ behind others))

def text (l : CodeList) : Text := l.first.text ++ behind l.others

end CodeList

/-! ### Occurrences of a code -/

variable {c : Char} {sub a b t : Text}

theorem prefix_of_prefix_append_cons (hc : c ∉ sub) (h : sub <+: a ++ c :: b) : sub <+: a := by
  have ha : a ++ [c] <+: a ++ c :: b := ⟨b,by simp⟩
  rcases List.prefix_or_prefix_of_prefix h ha with h | h
  · rcases List.prefix_concat_iff.mp h with rfl | h
    · simp at hc
    · exact h
  · exact absurd (h.subset (by simp)) hc

theorem infix_append_cons_iff (hc : c ∉ sub) (hne : sub ≠ []) :
    sub <:+: a ++ c :: b ↔ sub <:+: a ∨ sub <:+: b := by
  induction a with
  | nil =>
    have hnot : ¬sub <+: c :: b := fun h =>
      hne (List.prefix_nil.mp (prefix_of_prefix_append_cons (a := []) hc h))
    simp [List.infix_cons_iff,hnot,hne]
  | cons x a ih =>
    have hfront : sub <+: x :: (a ++ c :: b) ↔ sub <+: x :: a :=
      ⟨prefix_of_prefix_append_cons (a := x :: a) hc,fun h => h.trans (List.prefix_append _ _)⟩
    rw [List.cons_append,List.infix_cons_iff,List.infix_cons_iff,ih,hfront,or_assoc]

theorem infix_blanks_iff {n : Nat} (hc : ' ' ∉ sub) (hne : sub ≠ []) :
    sub <:+: List.replicate n ' ' ++ b ↔ sub <:+: b := by
  induction n with
  | zero => rfl
  | succ n ih =>
    have h := infix_append_cons_iff (a := []) (b := List.replicate n ' ' ++ b) hc hne
    rw [List.replicate_succ,List.cons_append,← ih]
    simpa [hne] using h

theorem CodeList.infix_text_iff (l : CodeList) (hcomma : ',' ∉ sub) (hblank : ' ' ∉ sub) (hne : sub ≠ []) :
    sub <:+: l.text ↔ ∃ x ∈ l.members, sub <:+: x.text := by
  have hbehind (a : Text) (others : List (Nat × ListedCode)) :
      sub <:+: a ++ behind others ↔ sub <:+: a ∨ ∃ x ∈ others.map (·.2), sub <:+: x.text := by
    induction others generalizing a with
    | nil => simp [behind]
    | cons y others ih => simp [behind,infix_append_cons_iff hcomma hne,infix_blanks_iff hblank hne,ih]
  simp [text,members,hbehind]

theorem Rule.code_eq (r : Rule) :
    ∃ ds : Text, r.code = 'D' :: ds ∧ ds.length = 3 ∧ ds.all Text.isAsciiDigit = true := by
  cases r <;> exact ⟨_,rfl,rfl,by decide⟩

theorem Text.not_isAsciiDigit_of_isAsciiUpper (h : Text.isAsciiUpper c = true) :
    Text.isAsciiDigit c = false := by
  simp only [isAsciiUpper,Bool.and_eq_true,decide_eq_true_eq] at h
  have hnot : ¬c ≤ '9' := fun hle => absurd (Char.le_trans h.1 hle) (by decide)
  simp [isAsciiDigit,hnot]

namespace ListedCode

variable (x : ListedCode)

theorem digits_count : x.text.countP Text.isAsciiDigit = 3 := by
  have hletters : x.letters.countP Text.isAsciiDigit = 0 := by
    rw [List.countP_eq_zero]
    intro c hc
    simp [Text.not_isAsciiDigit_of_isAsciiUpper (List.all_eq_true.mp x.areCapitals c hc)]
  have hdigits : x.digits.countP Text.isAsciiDigit = 3 := by
    rw [List.countP_eq_length.mpr (List.all_eq_true.mp x.areDigits),x.threeDigits]
  rw [text,List.countP_append,hletters,hdigits]

theorem infix_text_iff (r : Rule) : r.code <:+: x.text ↔ r.code <:+ x.text := by
  refine ⟨?_,List.IsSuffix.isInfix⟩
  rintro ⟨a,b,heq⟩
  obtain ⟨ds,hr,hlength,hds⟩ := r.code_eq
  have hcount : r.code.countP Text.isAsciiDigit = 3 := by
    rw [hr,List.countP_cons_of_neg (by decide),List.countP_eq_length.mpr (List.all_eq_true.mp hds),hlength]
  have hnone : b.countP Text.isAsciiDigit = 0 := by
    have h := x.digits_count
    rw [← heq,List.countP_append,List.countP_append,hcount] at h
    omega
  have hb : b <:+ x.letters ++ x.digits := ⟨a ++ r.code,heq⟩
  rcases List.suffix_or_suffix_of_suffix hb (List.suffix_append x.letters x.digits) with h | h
  · have hall : b.countP Text.isAsciiDigit = b.length := by
      rw [List.countP_eq_length]
      exact fun c hc => List.all_eq_true.mp x.areDigits c (h.subset hc)
    obtain rfl : b = [] := List.eq_nil_of_length_eq_zero (hall.symm.trans hnone)
    exact ⟨a,by rw [← heq,List.append_nil]⟩
  · have hle := h.sublist.countP_le (p := Text.isAsciiDigit)
    rw [List.countP_eq_length.mpr (List.all_eq_true.mp x.areDigits),x.threeDigits] at hle
    omega

theorem suffix_text_iff {r : Rule} (h : x.letters.length = 1) : r.code <:+ x.text ↔ x.text = r.code := by
  obtain ⟨ds,hr,hlength,-⟩ := r.code_eq
  refine ⟨fun hs => (hs.eq_of_length ?_).symm,fun he => he ▸ List.suffix_refl _⟩
  rw [hr,text,List.length_append,List.length_cons,hlength,h,x.threeDigits]

end ListedCode

/-! ### The comment -/

theorem Text.splitFrom_of_not_mem {sep acc : Text} (hc : c ∉ t) :
    Text.splitFrom (c :: sep) 0 acc t = [acc.reverse ++ t] := by
  induction t generalizing acc with
  | nil => simp [splitFrom]
  | cons x t ih =>
    obtain ⟨hx,ht⟩ := not_or.mp (List.mem_cons.not.mp hc)
    simp [splitFrom,List.isPrefixOf,beq_eq_false_iff_ne.mpr hx,ih ht]

theorem CodeList.not_mem_text (l : CodeList) (hc : c ≠ ',' ∧ c ≠ ' ')
    (hupper : Text.isAsciiUpper c = false) (hdigit : Text.isAsciiDigit c = false) : c ∉ l.text := by
  have hcode (x : ListedCode) : c ∉ x.text := by
    intro h
    rcases List.mem_append.mp h with h | h
    · simp [List.all_eq_true.mp x.areCapitals c h] at hupper
    · simp [List.all_eq_true.mp x.areDigits c h] at hdigit
  have hbehind (others : List (Nat × ListedCode)) : c ∉ behind others := by
    induction others with
    | nil => simp [behind]
    | cons y others ih => simp [behind,List.mem_replicate,hc,hcode,ih]
  simp [text,hcode,hbehind]

theorem CodeList.text_ne_nil (l : CodeList) : l.text.isEmpty = false := by
  obtain ⟨c,cs,h⟩ := List.exists_cons_of_length_pos l.first.hasLetter
  simp [text,ListedCode.text,h]

namespace Outline

def listing (l : CodeList) : Text := "# noqa: ".toList ++ l.text

theorem skippedBy_listing (l : CodeList) : skippedBy (listing l) = l.text := by
  have hn : 'n' ∉ l.text := l.not_mem_text (by decide) (by decide) (by decide)
  have hsplit : Text.splitOnText "noqa: " (listing l) = ["# ".toList, l.text] := by
    have h := @Text.splitFrom_of_not_mem 'n' l.text "oqa: ".toList [] hn
    change ['#', ' '] :: Text.splitFrom "noqa: ".toList 0 [] l.text = _
    exact congrArg _ h
  rw [skippedBy,hsplit]
  simp

theorem Opening.skipped_listing {o : Opening} {l : CodeList}
    (h : o.remark.map (·.token.value) = some (listing l)) : skippedIn o.fillers = l.text := by
  obtain ⟨r,hr,hv⟩ := Option.map_eq_some_iff.mp h
  have hskipped : skippedAt r.token = l.text := by
    rw [skippedAt,if_pos r.isKind,hv,skippedBy_listing]
  simp [Opening.fillers,hr,skippedIn,hskipped,l.text_ne_nil]

variable {kind : DefinitionKind} {fresh : Bool} {ds : List Decorator} {s s' : State} {d : Definition}

theorem bodyOf_skipped {nested : Region → Reader (List Definition)} {name codes : Text}
    {f : Nat → List Definition → Definition} (hf : ∀ n ds, (f n ds).skipped = codes)
    (h : bodyOf nested kind name f s = .ok d s') : d.skipped = codes := by
  obtain ⟨children,_,-,h⟩ := bind_eq_ok h
  obtain ⟨_,_,-,h⟩ := bind_eq_ok h
  obtain ⟨n,_,-,h⟩ := bind_eq_ok h
  obtain ⟨_,_,-,h⟩ := bind_eq_ok h
  obtain ⟨_,_,-,h⟩ := bind_eq_ok h
  cases h
  exact hf (n - 1) children

theorem definition_skipped [Resources] (h : Head) (o : Opening) (b : Indented)
    (hs : s.spot = .before (h.core ++ (o.tokens ++ b.tokens)) fresh ds)
    (hd : definition kind s = .ok d s') : d.skipped = skippedIn o.fillers := by
  obtain ⟨s₁,-,heq⟩ := definitionWith_opening h o ⟨b.first,b.rest,rfl,b.opens⟩ b.docstring_runs s hs
  have hbody := heq.symm.trans hd
  exact bodyOf_skipped (fun _ _ => rfl) hbody

end Outline

open Outline

theorem CheckOptions.keeps_iff {o : CheckOptions} {s : Subject} {f : Finding} {l : CodeList}
    (ho : o.ignoreComments = false) (hs : s.skipped = l.text) :
    o.keeps s f = true ↔ ∀ x ∈ l.members, ¬f.code <:+ x.text := by
  obtain ⟨ds,hr,-,hds⟩ := f.rule.code_eq
  have hnot {c : Char} (hD : c ≠ 'D') (hc : Text.isAsciiDigit c = false) : c ∉ f.rule.code := by
    intro h
    rw [hr] at h
    rcases List.mem_cons.mp h with h | h
    · exact hD h
    · rw [List.all_eq_true.mp hds c h] at hc
      cases hc
  have hne : f.rule.code ≠ [] := by simp [hr]
  have hin := l.infix_text_iff (hnot (c := ',') (by decide) (by decide))
    (hnot (c := ' ') (by decide) (by decide)) hne
  simp only [ListedCode.infix_text_iff] at hin
  rw [keeps,ho,hs,Bool.false_or,Bool.not_eq_true',← Bool.not_eq_true,Text.containsText_iff,Finding.code,hin]
  simp

/-- A comment with a list of codes behind the header of a definition lets a finding pass if no listed
code ends with the code of the finding. Where the listed codes have one letter each, these are the
findings whose codes are not listed. -/
theorem listed_codes_keep_iff [Resources] (h : Head) (o : Opening) (b : Indented) (l : CodeList) (kind : DefinitionKind)
    (fresh : Bool) (ds : List Decorator) (s s' : State) (d : Definition)
    (ho : o.remark.map (·.token.value) = some (listing l))
    (hs : s.spot = .before (h.core ++ (o.tokens ++ b.tokens)) fresh ds)
    (hd : definition kind s = .ok d s') :
    d.skipped = l.text ∧
    ∀ (options : CheckOptions) (m : Module) (ancestors : List Definition) (f : Finding),
      options.ignoreComments = false →
      (options.keeps (.definition m ancestors d) f = true ↔ ∀ x ∈ l.members, ¬f.code <:+ x.text) ∧
      ((∀ x ∈ l.members, x.letters.length = 1) →
        (options.keeps (.definition m ancestors d) f = true ↔ f.code ∉ l.members.map ListedCode.text)) := by
  have hskipped : d.skipped = l.text := by
    rw [definition_skipped h o b hs hd,Opening.skipped_listing ho]
  refine ⟨hskipped,fun options m ancestors f hoptions => ?_⟩
  have hkeeps := CheckOptions.keeps_iff (s := .definition m ancestors d) (f := f) hoptions hskipped
  refine ⟨hkeeps,fun hone => hkeeps.trans ?_⟩
  rw [List.mem_map,not_exists]
  refine forall_congr' fun x => ?_
  rw [not_and]
  exact forall_congr' fun hx => not_congr (x.suffix_text_iff (hone x hx))

def shortAndLong : CodeList where
  first := ⟨['D'], ['1', '0', '3'], by decide, by decide, rfl, by decide, by decide⟩
  others := [(2, ⟨['X', 'D'], ['2', '0', '5'], by decide, by decide, rfl, by decide, by decide⟩)]

def listingHead : Head where
  decorators := []
  async := none
  keyword := mapped.keyword
  name := mapped.name.token
  signature := some ⟨mapped.opening, mapped.inside, mapped.closing, [], mapped.balanced, rfl⟩
  colon := mapped.colon
  isAsync := rfl
  isKeyword := by decide

def listingOpening : Opening where
  remark := some ⟨tokenAt 1 .comment (listing shortAndLong), rfl, by decide⟩
  newline := mappedOpening.newline
  blanks := []
  indent := mappedOpening.indent

open Resources.Builtin

theorem listed_codes_keep_iff_shortAndLong : ∃ s s' d,
    State.ofTokens? (listingHead.core ++ (listingOpening.tokens ++ mappedBody.tokens)) = some s ∧
    definition .function s = .ok d s' ∧ d.skipped = "D103,  XD205".toList ∧
    ∀ m, CheckOptions.keeps {} (.definition m [] d) (Rule.plain .D103) = false ∧
      CheckOptions.keeps {} (.definition m [] d) (Rule.plain .D205) = false ∧
      CheckOptions.keeps {} (.definition m [] d) (Rule.plain .D102) = true := by
  have hread : readsTo (listingHead.core ++ (listingOpening.tokens ++ mappedBody.tokens))
      (definition .function) (fun _ _ => true) = true := by decide +kernel
  obtain ⟨s,d,s',hs,hd,-⟩ := exists_of_readsTo hread
  have hspot : s.spot =
      .before (listingHead.core ++ (listingOpening.tokens ++ mappedBody.tokens)) true [] := by
    cases hs
    rfl
  obtain ⟨hskipped,hkeeps⟩ := listed_codes_keep_iff listingHead listingOpening mappedBody shortAndLong
    .function true [] s s' d rfl hspot hd
  refine ⟨s,s',d,hs,hd,hskipped,fun m => ?_⟩
  have hkept (r : Rule) := (hkeeps {} m [] r.plain rfl).1
  refine ⟨Bool.eq_false_iff.mpr fun h => ?_,Bool.eq_false_iff.mpr fun h => ?_,(hkept .D102).mpr ?_⟩
  · exact absurd ((hkept .D103).mp h) (by decide)
  · exact absurd ((hkept .D205).mp h) (by decide)
  · decide

def longerCode : CodeList where
  first := ⟨['S', 'D'], ['1', '0', '3'], by decide, by decide, rfl, by decide, by decide⟩
  others := []

def longerListed : Text := "def f():  # noqa: SD103\n    pass\n"

theorem longer_code_switches_off : ∃ m d, Module.ofText "a.py" longerListed = .ok m ∧ m.children = [d] ∧
    d.skipped = longerCode.text ∧ Rule.code .D103 ∉ longerCode.members.map ListedCode.text ∧
    (Check.run {} .missing (.definition m [] d)).findings = [Rule.plain .D103] ∧
    CheckOptions.keeps {} (.definition m [] d) (Rule.plain .D103) = false ∧
    (m.check {}).fault = none ∧ (m.check {}).violations.map Violation.code = [Rule.code .D100] := by
  have hrun : ((Module.ofText "a.py" longerListed).toOption.any fun m => m.children.length == 1 &&
      (m.check {}).fault == none && (m.check {}).violations.map Violation.code == [Rule.code .D100] &&
      m.children.all fun d => d.skipped == longerCode.text &&
        (Check.run {} .missing (.definition m [] d)).findings == [Rule.plain .D103] &&
        !CheckOptions.keeps {} (.definition m [] d) (Rule.plain .D103)) = true := by
    decide +kernel
  obtain ⟨m,hm,hrun⟩ := exists_of_any hrun
  simp only [Bool.and_eq_true,beq_iff_eq,List.all_eq_true,
    Bool.not_eq_true'] at hrun
  obtain ⟨⟨⟨hone,hfault⟩,hcodes⟩,hall⟩ := hrun
  obtain ⟨d,hd⟩ := List.length_eq_one_iff.mp hone
  obtain ⟨⟨hskipped,hfound⟩,hkeeps⟩ := hall d (by simp [hd])
  exact ⟨m,d,hm,hd,hskipped,by decide,hfound,hkeeps,hfault,hcodes⟩

end DocLint
