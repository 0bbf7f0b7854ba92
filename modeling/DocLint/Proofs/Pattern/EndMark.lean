import DocLint.Proofs.Pattern.Matches

/-!
Patterns with a mark for the end behind their text. What is read goes on as before, up to where the text has
ended: there, the mark becomes one more item of the last alternative, unless it stands in a comment.
-/

set_option autoImplicit false

namespace DocLint.Pattern

variable {α β : Type} {s s' : Reading} {a : α}

namespace Reading

def marked (s : Reading) : Reading := { s with rest := s.rest ++ [.plain '$'] }

@[simp] theorem marked_rest : s.marked.rest = s.rest ++ [.plain '$'] := rfl

@[simp] theorem marked_groups : s.marked.groups = s.groups := rfl

@[simp] theorem marked_names : s.marked.names = s.names := rfl

@[simp] theorem marked_behind : s.marked.behind = s.behind := rfl

end Reading

theorem Reader.bind_eq_some {m : Reader α} {f : α → Reader β} {r : β × Reading} (h : (m >>= f) s = some r) :
    ∃ a s', m s = some (a, s') ∧ f a s' = some r := by
  obtain ⟨⟨a,s'⟩,ha,hr⟩ := Option.bind_eq_some_iff.mp h
  exact ⟨a,s',ha,hr⟩

theorem Reader.bind_of_eq_some {m : Reader α} {f : α → Reader β} (h : m s = some (a, s')) :
    (m >>= f) s = f a s' := by
  change (m s).bind _ = _
  rw [h]
  rfl

theorem Reader.takeIf_marked {p : PatternToken → Bool} {t? : Option PatternToken}
    (hp : p (.plain '$') = false ∨ s.rest ≠ []) (h : Reader.takeIf p s = some (t?, s')) (hc : s.inComment = false) :
    Reader.takeIf p s.marked = some (t?, s'.marked) ∧ s'.inComment = false := by
  unfold Reader.takeIf at h ⊢
  cases hrest : s.rest with
  | nil =>
    simp only [hrest] at h
    cases h
    simpa [hrest,hc] using hp
  | cons u us =>
    simp only [hrest] at h
    cases hu : p u with
    | true =>
      simp only [hu,if_true] at h
      cases h
      simp only [Reading.marked_rest,hrest,List.cons_append,hu,if_true]
      exact ⟨rfl,hc⟩
    | false =>
      simp only [hu,Bool.false_eq_true,if_false] at h
      cases h
      simp only [Reading.marked_rest,hrest,List.cons_append,hu,Bool.false_eq_true,if_false]
      exact ⟨trivial,hc⟩

/-! ### Readers that do not come to the mark -/

/-- What one reader takes from a text, another takes from the text with the mark. It does not end in a comment. -/
def Extends (m m' : Reader α) : Prop := ∀ s a s', m s = some (a, s') → s.inComment = false →
  m' s.marked = some (a, s'.marked) ∧ s'.inComment = false

namespace Extends

variable {m m' : Reader α} {f f' : α → Reader β}

theorem pure (a : α) : Extends (pure a : Reader α) (pure a) := by
  intro s b s' h hc
  cases h
  exact ⟨rfl,hc⟩

theorem failure (m : Reader α) : Extends (failure : Reader α) m := by
  intro s b s' h
  cases h

theorem bind (hm : Extends m m') (hf : ∀ a, Extends (f a) (f' a)) : Extends (m >>= f) (m' >>= f') := by
  intro s b s' h hc
  obtain ⟨a,s₁,ha,hb⟩ := Reader.bind_eq_some h
  obtain ⟨ha',hc₁⟩ := hm s a s₁ ha hc
  rw [Reader.bind_of_eq_some ha']
  exact hf a s₁ b s' hb hc₁

theorem map (hm : Extends m m') (g : α → β) : Extends (g <$> m) (g <$> m') := by
  rw [map_eq_pure_bind,map_eq_pure_bind]
  exact hm.bind fun a => pure (g a)

theorem ite {p : Prop} [Decidable p] {n n' : Reader α} (h : Extends m m') (h' : Extends n n') :
    Extends (if p then m else n) (if p then m' else n') := by
  split
  · exact h
  · exact h'

theorem known {g : Reading → α} (h : ∀ s : Reading, g s.marked = g s) : Extends (Reader.known g) (Reader.known g) := by
  intro s a s' hs hc
  cases hs
  exact ⟨congrArg (fun a => some (a, s.marked)) (h s),hc⟩

theorem modify {g : Reading → Reading} (h : ∀ s : Reading, g s.marked = (g s).marked)
    (hg : ∀ s : Reading, (g s).inComment = s.inComment) : Extends (modify g : Reader PUnit) (modify g) := by
  intro s a s' hs hc
  cases hs
  exact ⟨congrArg (fun s => some (PUnit.unit, s)) (h s),(hg s).trans hc⟩

theorem require (b : Bool) : Extends (Reader.require b) (Reader.require b) := ite (pure ()) (failure _)

theorem take : Extends Reader.take Reader.take := by
  intro s t s' h hc
  unfold Reader.take at h ⊢
  split at h
  · cases h
  · rename_i hrest
    cases h
    simp only [Reading.marked_rest,hrest,List.cons_append]
    exact ⟨rfl,hc⟩

theorem takeWhile {p : PatternToken → Bool} (hp : p (.plain '$') = false) :
    Extends (Reader.takeWhile p) (Reader.takeWhile p) := by
  intro s ts s' h hc
  cases h
  obtain ⟨hbefore,hafter⟩ := span_concat s.rest (.inl hp)
  simp only [Reader.takeWhile,Reading.marked_rest,hbefore,hafter]
  exact ⟨rfl,hc⟩

theorem takeIf {p : PatternToken → Bool} (hp : p (.plain '$') = false) :
    Extends (Reader.takeIf p) (Reader.takeIf p) := fun _ _ _ h hc => Reader.takeIf_marked (.inl hp) h hc

theorem takeUpTo {p : PatternToken → Bool} (hp : p (.plain '$') = false) (n : Nat) :
    Extends (Reader.takeUpTo p n) (Reader.takeUpTo p n) := by
  induction n with
  | zero => exact pure []
  | succ n ih =>
    refine (takeIf hp).bind fun t => ?_
    cases t with
    | none => exact pure []
    | some t => exact ih.bind fun ts => pure (t :: ts)

theorem accept {c : Char} (hc : c ≠ '$') : Extends (Reader.accept c) (Reader.accept c) :=
  (takeIf (by simpa using Ne.symm hc)).bind fun t => pure t.isSome

theorem expect {c : Char} (hc : c ≠ '$') : Extends (Reader.expect c) (Reader.expect c) :=
  (accept hc).bind fun b => require b

theorem takeUntil (c : Char) : Extends (Reader.takeUntil c) (Reader.takeUntil c) := by
  intro s t s' h hc
  unfold Reader.takeUntil at h ⊢
  split at h
  · cases h
  · rename_i u us hrest
    cases h
    have hleft : s.rest.dropWhile (· != .plain c) ≠ [] := by simp [hrest]
    obtain ⟨hbefore,hafter⟩ := @span_concat _ _ (.plain '$') _ (.inr hleft)
    simp only [Reading.marked_rest,hbefore,hafter,hrest,List.cons_append]
    exact ⟨rfl,hc⟩

theorem name (c : Char) : Extends (Reader.name c) (Reader.name c) :=
  (takeUntil c).bind fun t => (require _).bind fun _ => pure t

theorem attempt {m : Reader (Option α)} (h : Extends m m) : Extends (Reader.attempt m) (Reader.attempt m) := by
  intro s a s' hs hc
  unfold Reader.attempt at hs ⊢
  cases hm : m s with
  | none =>
    rw [hm] at hs
    cases hs
  | some r =>
    obtain ⟨b,s₁⟩ := r
    rw [hm] at hs
    obtain ⟨hm',hc₁⟩ := h s b s₁ hm hc
    rw [hm']
    cases b with
    | none =>
      cases hs
      exact ⟨rfl,hc⟩
    | some b =>
      cases hs
      exact ⟨rfl,hc₁⟩

end Extends

/-! ### Characters and classes -/

open Extends

theorem isHex_mark : PatternToken.isHex (.plain '$') = false := by decide

theorem isOctal_mark : PatternToken.isOctal (.plain '$') = false := by decide

theorem isDigit_mark : PatternToken.isDigit (.plain '$') = false := by decide

variable {named? : Text → Option Char}

theorem hexCode_extends (n : Nat) : Extends (hexCode n) (hexCode n) :=
  (takeUpTo isHex_mark n).bind fun _ => (require _).bind fun _ => pure _

theorem namedCode_extends : Extends (namedCode named?) (namedCode named?) := by
  refine (expect (by decide)).bind fun _ => (name _).bind fun t => ?_
  cases named? t with
  | none => exact failure _
  | some c => exact pure c.toNat

theorem longCode?_extends {c : Char} {m : Reader Nat} (h : longCode? named? c = some m) : Extends m m := by
  unfold longCode? at h
  split at h
  · cases h
    exact hexCode_extends 2
  · cases h
    exact hexCode_extends 4
  · cases h
    exact hexCode_extends 8
  · cases h
    exact namedCode_extends
  · cases h

theorem escapedItem_extends {digits : Reader ClassItem} (h : Extends digits digits) (c : Char) :
    Extends (escapedItem named? digits c) (escapedItem named? digits c) := by
  unfold escapedItem
  cases letterItem? c with
  | some i => exact pure i
  | none =>
    cases controlCode? c with
    | some n => exact pure _
    | none =>
      cases hcode : longCode? named? c with
      | some m => exact (longCode?_extends hcode).map _
      | none => exact ite h (ite (failure _) (pure _))

theorem octalItem_extends (c : Char) : Extends (octalItem c) (octalItem c) :=
  (require _).bind fun _ => (takeUpTo isOctal_mark 2).bind fun _ => (require _).bind fun _ => pure _

theorem classAtom_extends (t : PatternToken) : Extends (classAtom named? t) (classAtom named? t) := by
  cases t with
  | plain c => exact pure _
  | escaped c => exact ite (pure _) (escapedItem_extends (octalItem_extends c) c)

theorem range_extends (i j : ClassItem) : Extends (range i j) (range i j) := by
  unfold range
  split
  · exact ite (pure _) (failure _)
  · exact failure _

theorem classItems_extends (fuel : Nat) (items : List ClassItem) :
    Extends (classItems named? fuel items) (classItems named? (fuel + 1) items) := by
  induction fuel generalizing items with
  | zero => exact failure _
  | succ fuel ih =>
    refine take.bind fun t => ite (pure _) ((classAtom_extends t).bind fun item => ?_)
    refine (accept (by decide)).bind fun b => ite (take.bind fun u => ite (pure _) ?_) (ih _)
    exact (classAtom_extends u).bind fun last => (range_extends item last).bind fun r => ih _

theorem oneOfClass_extends (fuel : Nat) (flags : PatternFlags) :
    Extends (oneOfClass named? fuel flags) (oneOfClass named? (fuel + 1) flags) :=
  (accept (by decide)).bind fun _ => (classItems_extends fuel []).bind fun _ => pure _

/-! ### References to groups -/

theorem guardBehind_extends (i : Nat) : Extends (guardBehind i) (guardBehind i) :=
  (known fun _ => rfl).bind fun b => require b

theorem reference_extends (flags : PatternFlags) (i : Nat) : Extends (reference flags i) (reference flags i) :=
  (known fun _ => rfl).bind fun _ => (require _).bind fun _ => (guardBehind_extends i).bind fun _ => pure _

theorem groupNamed_extends (t : Text) : Extends (groupNamed t) (groupNamed t) := by
  refine (known fun _ => rfl).bind fun i => ?_
  cases i with
  | none => exact failure _
  | some i => exact pure i

theorem numbered_extends (flags : PatternFlags) (c : Char) : Extends (numbered flags c) (numbered flags c) := by
  refine (takeIf isDigit_mark).bind fun d => ?_
  cases d with
  | none => exact reference_extends flags _
  | some d =>
    refine (takeIf (by simp [isOctal_mark])).bind fun e => ?_
    cases e with
    | none => exact reference_extends flags _
    | some e => exact (require _).bind fun _ => pure _

theorem escaped_extends (flags : PatternFlags) (c : Char) :
    Extends (escaped named? flags c) (escaped named? flags c) := by
  unfold escaped
  split
  · exact pure _
  · exact pure _
  · exact pure _
  · exact pure _
  · exact ite (numbered_extends flags _) ((escapedItem_extends (octalItem_extends _) _).map _)

/-! ### Repetitions -/

theorem upperBound_extends (comma : Bool) (low : List PatternToken) :
    Extends (upperBound comma low) (upperBound comma low) := ite (takeWhile isDigit_mark) (pure low)

theorem bounds?_extends : Extends bounds? bounds? := by
  refine attempt ((takeWhile isDigit_mark).bind fun low => (accept (by decide)).bind fun comma => ?_)
  refine (upperBound_extends comma low).bind fun high => ?_
  exact (accept (by decide)).bind fun closed => ite (pure none) ((require _).bind fun _ => pure _)

theorem manner_extends : Extends manner manner :=
  (accept (by decide)).bind fun _ => ite (pure _) ((accept (by decide)).bind fun _ => ite (pure _) (pure _))

theorem repeated_extends (flags : PatternFlags) (last : Option Item) (bounds : Nat × Option Nat) :
    Extends (repeated flags last bounds) (repeated flags last bounds) := by
  cases last with
  | none => exact failure _
  | some i => exact (require _).bind fun _ => manner_extends.bind fun _ => pure _

theorem brace_extends (flags : PatternFlags) (last : Option Item) : Extends (brace flags last) (brace flags last) := by
  refine bounds?_extends.bind fun bounds => ?_
  cases bounds with
  | none => exact pure _
  | some bounds => exact repeated_extends flags last bounds

/-! ### Parentheses -/

theorem flagLetters_extends : Extends flagLetters flagLetters :=
  (takeWhile (by decide)).bind fun _ => pure _

theorem flagsOf_extends (cs : List Char) : Extends (flagsOf cs) (flagsOf cs) := by
  unfold flagsOf
  split
  · exact ite (failure _) (pure _)
  · exact failure _

theorem flagsOff_extends : Extends flagsOff flagsOff :=
  flagLetters_extends.bind fun cs => (require _).bind fun _ => (flagsOf_extends cs).bind fun _ =>
    (expect (by decide)).bind fun _ => (require _).bind fun _ => pure _

theorem switches_extends (on off : PatternFlags) : Extends (switches on off) (switches on off) :=
  (require _).bind fun _ => pure _

theorem flagGroup_extends (c : Char) : Extends (flagGroup c) (flagGroup c) := by
  refine ite (flagsOff_extends.bind fun off => switches_extends _ off) ?_
  refine flagLetters_extends.bind fun cs => (flagsOf_extends _).bind fun on => take.bind fun t => ?_
  split
  · exact pure _
  · exact switches_extends on _
  · exact flagsOff_extends.bind fun off => switches_extends on off
  · exact failure _

theorem groupNumbered_extends (i? : Option Nat) : Extends (groupNumbered i?) (groupNumbered i?) := by
  cases i? with
  | none => exact failure _
  | some i => exact (require _).bind fun _ => Extends.bind (modify (fun _ => rfl) fun _ => rfl) fun _ => pure _

theorem askedGroup_extends (t : Text) : Extends (askedGroup t) (askedGroup t) :=
  ite (groupNamed_extends t) (groupNumbered_extends _)

theorem condition_extends : Extends condition condition :=
  (name _).bind fun t => (askedGroup_extends t).bind fun i => (guardBehind_extends i).bind fun _ => pure _

theorem checkedName_extends (c : Char) : Extends (checkedName c) (checkedName c) :=
  (name c).bind fun _ => (require _).bind fun _ => pure _

theorem openGroup_extends (name : Option Text) : Extends (openGroup name) (openGroup name) :=
  (known fun _ => rfl).bind fun _ => (known fun _ => rfl).bind fun _ => (require _).bind fun _ =>
    Extends.bind (modify (fun _ => rfl) fun _ => rfl) fun _ => pure _

theorem closeGroup_extends (i : Nat) (p : Pattern) : Extends (closeGroup i p) (closeGroup i p) :=
  modify (fun _ => rfl) fun _ => rfl

theorem behindWidth_extends (p : Pattern) : Extends (behindWidth p) (behindWidth p) :=
  (known fun _ => rfl).bind fun _ => (require _).bind fun _ => pure _

/-- The same for readers that leave something. They may have stopped at the end of the text otherwise. -/
def ExtendsBefore (m m' : Reader α) : Prop := ∀ s a s', m s = some (a, s') → s.inComment = false →
  s'.rest ≠ [] → m' s.marked = some (a, s'.marked) ∧ s'.inComment = false

theorem takeIf_of_rest {p : PatternToken → Bool} (h : s.rest = []) : Reader.takeIf p s = some (none, s) := by
  rw [Reader.takeIf,h]

theorem takeIf_eq_none {p : PatternToken → Bool} (h : Reader.takeIf p s = some (none, s')) : s' = s := by
  unfold Reader.takeIf at h
  split at h
  · split at h <;> cases h
    rfl
  · cases h
    rfl

theorem accept_of_rest {c : Char} (h : s.rest = []) : Reader.accept c s = some (false, s) := by
  rw [Reader.accept,Reader.bind_of_eq_some (takeIf_of_rest h)]
  rfl

theorem accept_eq_false {c : Char} (h : Reader.accept c s = some (false, s')) : s' = s := by
  obtain ⟨t?,s₁,ht,h⟩ := Reader.bind_eq_some h
  cases t? with
  | none =>
    cases h
    exact takeIf_eq_none ht
  | some t => cases h

theorem expect_of_rest {c : Char} (h : s.rest = []) : Reader.expect c s = none := by
  rw [Reader.expect,Reader.bind_of_eq_some (accept_of_rest h)]
  rfl

section Nested

variable {nested nested' : PatternFlags → Reader (List Pattern)}
  (h : ∀ flags, ExtendsBefore (nested flags) (nested' flags))
include h

theorem contents_extends (flags : PatternFlags) : Extends (contents nested flags) (contents nested' flags) := by
  intro s ps s' hs hc
  obtain ⟨qs,s₁,hqs,hs⟩ := Reader.bind_eq_some hs
  have hleft : s₁.rest ≠ [] := by
    intro hnil
    obtain ⟨_,_,hexpect,-⟩ := Reader.bind_eq_some hs
    rw [expect_of_rest hnil] at hexpect
    cases hexpect
  obtain ⟨hqs',hc₁⟩ := h flags s qs s₁ hqs hc hleft
  rw [contents,Reader.bind_of_eq_some hqs']
  exact ((expect (c := ')') (by decide)).bind fun _ => pure qs) s₁ ps s' hs hc₁

theorem grouped_extends (flags : PatternFlags) (f : Pattern → Pattern) :
    Extends (grouped nested flags f) (grouped nested' flags f) :=
  (contents_extends h flags).bind fun _ => pure _

theorem capture_extends (flags : PatternFlags) (name : Option Text) :
    Extends (capture nested flags name) (capture nested' flags name) :=
  (openGroup_extends name).bind fun i => (contents_extends h flags).bind fun _ =>
    (closeGroup_extends i _).bind fun _ => pure _

theorem lookBehind_extends (flags : PatternFlags) (negated : Bool) :
    Extends (lookBehind nested flags negated) (lookBehind nested' flags negated) :=
  (known fun _ => rfl).bind fun _ => Extends.bind (modify (fun _ => rfl) fun _ => rfl) fun _ =>
    (contents_extends h flags).bind fun _ => Extends.bind (modify (fun _ => rfl) fun _ => rfl) fun _ =>
      (behindWidth_extends _).bind fun _ => pure _

theorem conditional_extends (flags : PatternFlags) :
    Extends (conditional nested flags) (conditional nested' flags) := by
  refine condition_extends.bind fun i => (contents_extends h flags).bind fun ps => ?_
  split
  · exact pure _
  · exact pure _
  · exact failure _

theorem named_extends (flags : PatternFlags) : Extends (named nested flags) (named nested' flags) := by
  refine (accept (by decide)).bind fun b => ite ?_ ?_
  · exact (checkedName_extends _).bind fun t => capture_extends h flags (some t)
  · exact (expect (by decide)).bind fun _ => (checkedName_extends _).bind fun t => (groupNamed_extends t).bind fun i =>
      (reference_extends flags i).bind fun _ => pure _

theorem flagged_extends (flags : PatternFlags) (atStart : Bool) (c : Char) :
    Extends (flagged nested flags atStart c) (flagged nested' flags atStart c) := by
  refine (flagGroup_extends c).bind fun switched => ?_
  split
  · exact ite (pure _) (failure _)
  · exact grouped_extends h _ id

theorem parenthesis_extends (flags : PatternFlags) (atStart : Bool) :
    Extends (parenthesis nested flags atStart) (parenthesis nested' flags atStart) := by
  refine (accept (by decide)).bind fun b => ite (take.bind fun t => ?_) (capture_extends h flags none)
  split
  · exact named_extends h flags
  · exact grouped_extends h flags id
  · exact grouped_extends h flags .atomic
  · exact (takeUntil _).bind fun _ => pure _
  · exact grouped_extends h flags _
  · exact grouped_extends h flags _
  · refine take.bind fun u => ?_
    split
    · exact lookBehind_extends h flags false
    · exact lookBehind_extends h flags true
    · exact failure _
  · exact conditional_extends h flags
  · exact ite (flagged_extends h flags atStart _) (failure _)
  · exact failure _

theorem piece_extends (flags : PatternFlags) (fuel : Nat) (atStart : Bool) (last : Option Item) (t : PatternToken) :
    Extends (piece named? nested flags fuel atStart last t)
      (piece named? nested' flags (fuel + 1) atStart last t) := by
  unfold piece
  split
  · exact (escaped_extends flags _).map _
  · exact (oneOfClass_extends fuel flags).map _
  · exact parenthesis_extends h flags atStart
  · exact pure _
  · exact pure _
  · exact pure _
  · exact repeated_extends flags last _
  · exact repeated_extends flags last _
  · exact repeated_extends flags last _
  · exact brace_extends flags last
  · exact pure _

end Nested

/-! ### Sequences and alternatives -/

/-- What a reader comes to on a text with the mark. Before the end it is the same; at the end, something is
added for the mark, if it does not stand in a comment. -/
inductive Meets (added : α → α → Prop) (a : α) (s : Reading) : α → Reading → Prop where
  | before (hrest : s.rest ≠ []) (hc : s.inComment = false) : Meets added a s a s.marked
  | inComment (hrest : s.rest = []) (hc : s.inComment = true) : Meets added a s a s
  | atEnd {b : α} (hrest : s.rest = []) (hc : s.inComment = false) (h : added a b) : Meets added a s b s

def MarkedItems (r r' : List Item × PatternFlags) : Prop := r' = (r.1 ++ [.ofAnchor r.2.stop], r.2)

def MarkedLast (ps ps' : List Pattern) (a : Anchor) : Prop :=
  ∃ before qs, ps = before ++ [inOrder qs] ∧ ps' = before ++ [inOrder (qs ++ [.anchor a])]

def MarkedAlternatives (r r' : List Pattern × PatternFlags) : Prop := MarkedLast r.1 r'.1 r.2.stop ∧ r'.2 = r.2

theorem skipLine_mark (h : Reader.skipLine s = some ((), s')) (hc : s.inComment = false) :
    Reader.skipLine s.marked = some ((), s'.marked) ∧ s'.inComment = false ∨
      Reader.skipLine s.marked = some ((), s') ∧ s'.rest = [] ∧ s'.inComment = true := by
  unfold Reader.skipLine at h ⊢
  split at h
  · rename_i hdrop
    cases h
    right
    rw [Reading.marked_rest,List.dropWhile_append_of_pos (List.dropWhile_eq_nil_iff.mp hdrop)]
    exact ⟨rfl,rfl,rfl⟩
  · rename_i t ts hdrop
    cases h
    left
    have hleft : s.rest.dropWhile (· != .plain '\n') ≠ [] := by simp [hdrop]
    rw [Reading.marked_rest,(span_concat s.rest (.inr hleft)).2,hdrop]
    exact ⟨rfl,hc⟩

section Sequences

variable {nested nested' : PatternFlags → Reader (List Pattern)} {flags : PatternFlags} {first : Bool}

theorem sequence_of_rest (fuel : Nat) (items : List Item) (h : s.rest = []) :
    sequence named? nested (fuel + 1) flags first items s = some ((items, flags), s) := by
  rw [sequence,Reader.bind_of_eq_some (takeIf_of_rest h)]
  rfl

theorem sequence_marked_of_rest (fuel : Nat) (items : List Item) (h : s.rest = []) :
    sequence named? nested (fuel + 2) flags first items s.marked =
      some ((items ++ [.ofAnchor flags.stop], flags), s) := by
  have htake : Reader.takeIf (fun t => t != .plain '|' && t != .plain ')') s.marked = some (some (.plain '$'), s) := by
    obtain ⟨_,groups,names,behind,asked,inComment⟩ := s
    cases h
    rfl
  have hpiece : piece named? nested flags (fuel + 1) (first && items.isEmpty) items.getLast? (.plain '$') s =
    some (.item (.ofAnchor flags.stop), s) := rfl
  rw [sequence,Reader.bind_of_eq_some htake]
  simp only [show isBlank (.plain '$') = false by decide,Bool.and_false,Bool.false_eq_true,if_false,
    show decide (PatternToken.plain '$' = .plain '#') = false by decide]
  rw [Reader.bind_of_eq_some hpiece]
  exact sequence_of_rest fuel _ h

/-- A sequence on a text with the mark. The induction is on how many items may be read. -/
theorem sequence_mark (hnested : ∀ flags, ExtendsBefore (nested flags) (nested' flags)) (fuel : Nat)
    (flags : PatternFlags) (items : List Item) {r : List Item × PatternFlags}
    (h : sequence named? nested fuel flags first items s = some (r, s')) (hc : s.inComment = false) :
    ∃ r' s'', sequence named? nested' (fuel + 1) flags first items s.marked = some (r', s'') ∧
      Meets MarkedItems r s' r' s'' := by
  induction fuel generalizing flags items s with
  | zero => cases h
  | succ fuel ih =>
    by_cases hrest : s.rest = []
    · rw [sequence_of_rest fuel items hrest] at h
      cases h
      exact ⟨_,_,sequence_marked_of_rest fuel items hrest,.atEnd hrest hc rfl⟩
    rw [sequence] at h ⊢
    obtain ⟨t?,s₁,ht,h⟩ := Reader.bind_eq_some h
    obtain ⟨ht',hc₁⟩ := Reader.takeIf_marked (.inr hrest) ht hc
    rw [Reader.bind_of_eq_some ht']
    cases t? with
    | none =>
      cases h
      exact ⟨_,_,rfl,.before (takeIf_eq_none ht ▸ hrest) hc₁⟩
    | some t =>
      simp only at h ⊢
      split at h
      · rename_i hblank
        rw [if_pos hblank]
        exact ih flags items h hc₁
      · rename_i hblank
        rw [if_neg hblank]
        split at h
        · rename_i hcomment
          rw [if_pos hcomment]
          obtain ⟨_,s₂,hskip,h⟩ := Reader.bind_eq_some h
          obtain ⟨hskip',hc₂⟩ | ⟨hskip',hrest₂,hc₂⟩ := skipLine_mark hskip hc₁
          · rw [Reader.bind_of_eq_some hskip']
            exact ih flags items h hc₂
          · rw [Reader.bind_of_eq_some hskip']
            cases fuel with
            | zero => cases h
            | succ fuel =>
              rw [sequence_of_rest fuel items hrest₂] at h
              cases h
              exact ⟨_,_,sequence_of_rest (fuel + 1) items hrest₂,.inComment hrest₂ hc₂⟩
        · rename_i hcomment
          rw [if_neg hcomment]
          obtain ⟨x,s₂,hx,h⟩ := Reader.bind_eq_some h
          obtain ⟨hx',hc₂⟩ := piece_extends hnested flags fuel _ _ t s₁ x s₂ hx hc₁
          rw [Reader.bind_of_eq_some hx']
          cases x with
          | item i => exact ih flags _ h hc₂
          | instead i => exact ih flags _ h hc₂
          | nothing => exact ih flags _ h hc₂
          | flags f => exact ih f _ h hc₂

theorem alternation_of_rest (fuel : Nat) {r : List Item × PatternFlags}
    (h : sequence named? nested fuel flags first [] s = some (r, s')) (hrest : s'.rest = []) :
    alternation named? nested (fuel + 1) flags first s = some (([inOrder (r.1.map Item.pattern)], r.2), s') := by
  rw [alternation,Reader.bind_of_eq_some h]
  exact Reader.bind_of_eq_some (accept_of_rest hrest)

theorem Meets.cons {p : Pattern} {r r' : List Pattern × PatternFlags} (h : Meets MarkedAlternatives r s r' s') :
    Meets MarkedAlternatives (p :: r.1, r.2) s (p :: r'.1, r'.2) s' := by
  cases h with
  | before hrest hc => exact .before hrest hc
  | inComment hrest hc => exact .inComment hrest hc
  | atEnd hrest hc hadded =>
    obtain ⟨⟨before,qs,hr,hr'⟩,hflags⟩ := hadded
    exact .atEnd hrest hc ⟨⟨p :: before,qs,congrArg (p :: ·) hr,congrArg (p :: ·) hr'⟩,hflags⟩

/-- Alternatives on a text with the mark. The induction is on how many there may be. -/
theorem alternation_mark (hnested : ∀ flags, ExtendsBefore (nested flags) (nested' flags)) (fuel : Nat)
    (flags : PatternFlags) {r : List Pattern × PatternFlags}
    (h : alternation named? nested fuel flags first s = some (r, s')) (hc : s.inComment = false) :
    ∃ r' s'', alternation named? nested' (fuel + 1) flags first s.marked = some (r', s'') ∧
      Meets MarkedAlternatives r s' r' s'' := by
  induction fuel generalizing flags first s r with
  | zero => cases h
  | succ fuel ih =>
    obtain ⟨q,s₁,hq,hbar⟩ := Reader.bind_eq_some h
    obtain ⟨q',s₂,hq',hmeets⟩ := sequence_mark hnested fuel flags [] hq hc
    cases hmeets with
    | before hrest hc₁ =>
      obtain ⟨b,s₂,hb,hr⟩ := Reader.bind_eq_some hbar
      obtain ⟨hb',hc₂⟩ := accept (c := '|') (by decide) s₁ b s₂ hb hc₁
      obtain ⟨items,flags'⟩ := q
      rw [alternation,Reader.bind_of_eq_some hq']
      dsimp only
      rw [Reader.bind_of_eq_some hb']
      cases b with
      | false =>
        cases hr
        exact ⟨_,_,rfl,.before (accept_eq_false hb ▸ hrest) hc₂⟩
      | true =>
        obtain ⟨ps,s₃,hps,hr⟩ := Reader.bind_eq_some hr
        cases hr
        obtain ⟨ps',s₄,hps',hmeets⟩ := ih flags' hps hc₂
        exact ⟨_,s₄,Reader.bind_of_eq_some hps',hmeets.cons⟩
    | inComment hrest hc₁ =>
      rw [alternation_of_rest fuel hq hrest] at h
      cases h
      exact ⟨_,_,alternation_of_rest (fuel + 1) hq' hrest,.inComment hrest hc₁⟩
    | atEnd hrest hc₁ hadded =>
      rw [alternation_of_rest fuel hq hrest] at h
      cases h
      refine ⟨_,_,alternation_of_rest (fuel + 1) hq' hrest,.atEnd hrest hc₁ ⟨⟨[],q.1.map Item.pattern,rfl,?_⟩,?_⟩⟩
      · rw [hadded,List.map_append]
        rfl
      · rw [hadded]

end Sequences

theorem alternatives_extends (fuel depth : Nat) (flags : PatternFlags) :
    ExtendsBefore (alternatives named? fuel depth flags) (alternatives named? (fuel + 1) (depth + 1) flags) := by
  induction depth generalizing flags with
  | zero =>
    intro s ps s' h
    cases h
  | succ depth ih =>
    intro s ps s' h hc hrest
    obtain ⟨r,s₁,hr,h⟩ := Reader.bind_eq_some h
    cases h
    obtain ⟨r',s₂,hr',hmeets⟩ := alternation_mark ih fuel flags hr hc
    rw [alternatives,Reader.bind_of_eq_some hr']
    cases hmeets with
    | before _ hc => exact ⟨rfl,hc⟩
    | inComment hnil => exact absurd hnil hrest
    | atEnd hnil => exact absurd hnil hrest

theorem tokens_mark {t : Text} {ts : List PatternToken} (h : PatternToken.ofText? t = some ts) :
    PatternToken.ofText? (t ++ ['$']) = some (ts ++ [.plain '$']) := by
  induction t using PatternToken.ofText?.induct generalizing ts with
  | case1 =>
    cases h
    rfl
  | case2 c cs ih =>
    obtain ⟨us,hus,rfl⟩ := Option.map_eq_some_iff.mp h
    exact Option.map_eq_some_iff.mpr ⟨_,ih hus,rfl⟩
  | case3 cs hlone =>
    rw [PatternToken.ofText?] at h
    · cases h
    · exact hlone
  | case4 c cs hlone hc ih =>
    rw [PatternToken.ofText?,if_neg hc] at h
    · obtain ⟨us,hus,rfl⟩ := Option.map_eq_some_iff.mp h
      rw [List.cons_append,PatternToken.ofText?,if_neg hc]
      · exact Option.map_eq_some_iff.mpr ⟨_,ih hus,rfl⟩
      · exact fun _ _ hslash _ => hc hslash
    · exact hlone

namespace Source

/-- The mark is one more item of the last alternative, unless the text of the pattern ends in a comment. -/
def IsMarked (x x' : Source) : Prop :=
  if x.inComment then x'.alternatives = x.alternatives
  else MarkedLast x.alternatives x'.alternatives (if x.multiline then .lineStop else .stop)

theorem ofTokens?_mark {ts : List PatternToken} {x : Source} (h : ofTokens? named? ts = some x) :
    ∃ x', ofTokens? named? (ts ++ [.plain '$']) = some x' ∧ IsMarked x x' := by
  obtain ⟨⟨⟨ps,flags⟩,s⟩,hps,h⟩ := Option.bind_eq_some_iff.mp h
  obtain ⟨hall,hx⟩ := Option.ite_none_right_eq_some.mp h
  cases hx
  have hrest : s.rest = [] := by simp_all
  obtain ⟨⟨ps',flags'⟩,s',hps',hmeets⟩ := alternation_mark (alternatives_extends _ _) _ {} hps rfl
  have hfuel : ts.length + 2 + 1 = (ts ++ [PatternToken.plain '$']).length + 2 := by simp
  rw [hfuel] at hps'
  cases hmeets with
  | before hleft => exact absurd hrest hleft
  | inComment _ hc =>
    refine ⟨_,Option.bind_eq_some_iff.mpr ⟨_,hps',if_pos hall⟩,?_⟩
    rw [IsMarked,if_pos hc]
  | atEnd _ hc hadded =>
    obtain ⟨hlast,rfl⟩ := hadded
    refine ⟨_,Option.bind_eq_some_iff.mpr ⟨_,hps',if_pos hall⟩,?_⟩
    rw [IsMarked,if_neg (by simp [hc])]
    exact hlast

/-- The mark for the end behind the text of a pattern leaves it well formed. -/
theorem ofText?_mark {t : Text} {x : Source} (h : ofText? named? t = some x) :
    ∃ x', ofText? named? (t ++ ['$']) = some x' ∧ IsMarked x x' := by
  obtain ⟨ts,hts,hx⟩ := Option.bind_eq_some_iff.mp h
  obtain ⟨x',hx',hmarked⟩ := ofTokens?_mark hx
  exact ⟨x',Option.bind_eq_some_iff.mpr ⟨_,tokens_mark hts,hx'⟩,hmarked⟩

end Source

end DocLint.Pattern
