import DocLint.Check.Wording
import DocLint.Check.Layout
import DocLint.Proofs.Token.Mark

/-!
Checks on a docstring come to an end if it stands for a text that is not blank.
-/

set_option autoImplicit false

namespace DocLint

namespace Outcome

variable {a b : Outcome} {os : List Outcome} {e : Except CheckFault (List Finding)}

def IsComplete (o : Outcome) : Prop := o.fault = none

def broken (o : Outcome) : List Rule := o.findings.map (·.rule)

theorem isComplete_empty : IsComplete {} := rfl

theorem isComplete_ofList (findings : List Finding) : (ofList findings).IsComplete := rfl

theorem isComplete_ofExcept (h : ∃ findings, e = .ok findings) : (ofExcept e).IsComplete := by
  obtain ⟨findings,rfl⟩ := h
  rfl

theorem IsComplete.append (ha : a.IsComplete) (hb : b.IsComplete) : (a ++ b).IsComplete := by
  change (Outcome.append a b).fault = none
  unfold Outcome.append
  rw [show a.fault = none from ha]
  exact hb

theorem isComplete_concat (h : ∀ o ∈ os, IsComplete o) : (concat os).IsComplete := by
  induction os with
  | nil => exact isComplete_empty
  | cons o os ih =>
    exact (h o (by simp)).append (ih fun o' ho' => h o' (by simp [ho']))

end Outcome

def Docstring.isPlain (d : Docstring) : Bool :=
  (Literal.ofText? d.text).any fun l => !l.isBytes && !l.isFormatted

def Docstring.isReadable [Resources] (d : Docstring) : Bool := d.value.isOk

section Plain

variable {d : Docstring}

theorem Docstring.value_of_isPlain [Resources] (h : d.isPlain = true) :
    (∃ t, d.value = .ok (.text t)) ∨ d.value = .error .malformedDocstring := by
  unfold Docstring.isPlain at h
  unfold Docstring.value
  cases hl : Literal.ofText? d.text with
  | none => exact Or.inr rfl
  | some l =>
    simp only [hl,Option.any_some,Bool.and_eq_true,Bool.not_eq_true'] at h
    simp only [Literal.value,h,Bool.false_eq_true,if_false]
    cases Grammar.isString d.text with
    | false => exact Or.inr rfl
    | true =>
      cases Literal.decodeText l.isRaw l.body with
      | ok t => exact Or.inl ⟨t,rfl⟩
      | error e => exact Or.inr rfl

theorem Docstring.content_of_value [Resources] {t : Text} (h : d.value = .ok (.text t)) : d.content = .ok t := by
  rw [Docstring.content,h]
  rfl

theorem Docstring.judged_ok [Resources] {t : Text} (h : d.content = .ok t) (f : Text → List Finding) :
    ∃ findings, d.judged f = .ok findings := by
  rw [Docstring.judged,h]
  exact ⟨_,rfl⟩

/-- Before the quotes of a plain docstring stands one letter at most, and it is passed over. -/
theorem Docstring.unmarked_of_isPlain (h : d.isPlain = true) :
    ∃ q rest, Check.Wording.unmarked d.text = q :: rest ∧ Lexeme.isQuote q = true := by
  unfold Docstring.isPlain Literal.ofText? at h
  cases hm : Lexeme.literalMark? d.text with
  | none => simp [hm] at h
  | some found =>
    obtain ⟨mark,quoted⟩ := found
    simp only [hm,Option.any_some,Bool.and_eq_true,Bool.not_eq_true'] at h
    obtain ⟨heq,hmark,q,rest,rfl,hq⟩ := Lexeme.literalMark_eq hm
    refine ⟨q,rest,?_,hq⟩
    have hquote : q = '"' ∨ q = '\'' := by simpa [Lexeme.isQuote] using hq
    rw [heq]
    obtain rfl | ⟨c,rfl,hc⟩ := Lexeme.plain_mark hmark h.1 h.2
    · obtain rfl | rfl := hquote <;> rfl
    · obtain rfl | rfl := hquote <;> obtain rfl | rfl | rfl | rfl := hc <;> rfl
end Plain

theorem ok_bind {α β : Type} (a : α) (f : α → Except CheckFault β) : (Except.ok a >>= f) = f a := rfl

namespace Check.Layout

open Outcome

variable {d : Docstring} {t : Text}

theorem least_ok {indents : List Text} (h : 0 < indents.length) : ∃ t, least indents = .ok t := by
  cases indents with
  | nil => simp at h
  | cons t ts => exact ⟨_,rfl⟩

theorem isDeeper_ok (indent : Text) (indents : List Text) : ∃ b, isDeeper indent indents = .ok b := by
  unfold isDeeper
  simp only
  split
  case isTrue h =>
    obtain ⟨t,ht⟩ := @least_ok indents.dropLast (by rw [List.length_dropLast]; omega)
    rw [ht]
    exact ⟨_,rfl⟩
  case isFalse => exact ⟨_,rfl⟩

theorem isShallower_ok (indent : Text) (indents : List Text) :
    ∃ b, isShallower indent indents = .ok b := by
  unfold isShallower
  split
  case isTrue h =>
    obtain ⟨t,ht⟩ := least_ok h
    rw [ht]
    exact ⟨_,rfl⟩
  case isFalse => exact ⟨_,rfl⟩

theorem indentation_complete (s : Subject) (d : Docstring) : (indentation s d).IsComplete := by
  unfold indentation
  simp only
  split
  case isTrue => exact isComplete_empty
  case isFalse =>
    generalize List.map Text.leadingSpace _ = indents
    obtain ⟨deeper,hdeeper⟩ := isDeeper_ok (surroundings s d).indent indents
    obtain ⟨shallower,hshallower⟩ := isShallower_ok (surroundings s d).indent indents
    rw [hdeeper,hshallower]
    rfl

end Check.Layout

namespace Check.Wording

variable {d : Docstring} {t : Text}

theorem quotes_ok [Resources] (hp : d.isPlain = true) (h : d.content = .ok t) :
    ∃ findings, quotes d = .ok findings := by
  obtain ⟨q,rest,hrest,hq⟩ := Docstring.unmarked_of_isPlain hp
  have hquotes : quotesOf (q :: rest) = .ok ((q :: rest).takeWhile (· = q)) := by simp [quotesOf,hq]
  rw [quotes,h,ok_bind,hrest,hquotes]
  simp only
  split <;> exact ⟨_,rfl⟩

theorem summaryLine_ne_nil (h : t.isBlank = false) : summaryLine t ≠ [] := by
  obtain ⟨c,cs,ht,hc⟩ := Text.strip_of_not_blank h
  have hne : c ≠ '\n' := by
    rintro rfl
    exact absurd hc (by decide)
  simp [summaryLine,ht,hne]

theorem summaryEnd_ok [Resources] (r : Rule) (endings : List Char) (h : d.content = .ok t)
    (hb : t.isBlank = false) : ∃ findings, summaryEnd r endings d = .ok findings := by
  rw [summaryEnd,h,ok_bind,List.getLast?_eq_some_getLast (summaryLine_ne_nil hb)]
  exact ⟨_,rfl⟩

theorem firstWord_ok [Resources] (h : d.value = .ok (.text t)) (hb : t.isBlank = false) :
    ∃ word, firstWord? d = .ok (some word) := by
  obtain ⟨c,cs,ht,hc⟩ := Text.strip_of_not_blank hb
  obtain ⟨w,ws,hw⟩ := List.exists_cons_of_ne_nil (Text.words_ne_nil (t := c :: cs) (by simp) hc)
  rw [firstWord?,h,ok_bind]
  simp only [ht,hw,List.isEmpty_cons,Bool.false_eq_true,if_false]
  exact ⟨_,rfl⟩

theorem judgedWord_ok [Resources] (f : Text → List Finding) (h : d.value = .ok (.text t))
    (hb : t.isBlank = false) : ∃ findings, judgedWord f d = .ok findings := by
  obtain ⟨word,hword⟩ := firstWord_ok h hb
  rw [judgedWord,hword]
  exact ⟨_,rfl⟩

theorem imperativeMood_ok [Resources] (properties : List Text) (f : Definition) (h : d.value = .ok (.text t))
    (hb : t.isBlank = false) : ∃ findings, imperativeMood properties f d = .ok findings := by
  unfold imperativeMood
  split
  · exact ⟨_,rfl⟩
  · exact judgedWord_ok mood h hb

theorem capitalized_ok [Resources] (h : d.value = .ok (.text t)) (hb : t.isBlank = false) :
    ∃ findings, capitalized d = .ok findings := by
  obtain ⟨w,ws,hw⟩ := Text.words_of_not_blank hb
  rw [capitalized,h,ok_bind]
  simp only [hw,List.head?_cons]
  split <;> exact ⟨_,rfl⟩

end Check.Wording

end DocLint
