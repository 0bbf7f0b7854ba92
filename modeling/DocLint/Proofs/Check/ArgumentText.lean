import DocLint.Proofs.Check.ArgumentEntries

/-!
The text behind the colon of an argument: what is left of it without indentation, and when it passes for
a description.
-/

set_option autoImplicit false

namespace DocLint.Check.Sections

def plainLine (indent l : Text) : Text :=
  let u := l.drop indent.length
  if Text.isMargin u then [] else u

namespace ArgumentEntry

variable {indent : Text} (e : ArgumentEntry indent)

def plainBelow : List Text := (e.below.filter (isKept indent)).map (plainLine indent)

def behind : Text := Text.join ['\n'] (e.rest :: e.plainBelow)

/-- The text behind the colon up to the next entry; behind the last one there is no whitespace. -/
def text (isLast : Bool) : Text := if isLast then e.behind.stripRight else e.behind ++ ['\n']

end ArgumentEntry

/-! ### Lines joined -/

section Behind

variable {indent l t p : Text} {ps : List Text} {c : Char}

theorem hasDescription_iff : hasDescription t = true ↔ ∃ c ∈ t, c ≠ '\n' := by
  induction t with
  | nil => simp [hasDescription]
  | cons c t ih =>
    by_cases hc : c = '\n'
    · rw [hc,hasDescription_feed,ih]
      simp
    · simp [hasDescription_cons hc,hc]

theorem mem_join (hc : c ≠ '\n') : c ∈ Text.join ['\n'] ps ↔ ∃ p ∈ ps, c ∈ p := by
  induction ps with
  | nil => simp [Text.join]
  | cons p ps ih =>
    cases ps with
    | nil => simp [Text.join]
    | cons q qs => simp [Text.join,ih,hc]

theorem join_cons_append (sep a p : Text) (ps : List Text) :
    Text.join sep ((a ++ p) :: ps) = a ++ Text.join sep (p :: ps) := by
  cases ps <;> simp [Text.join]

theorem hasDescription_join (h : ∀ p ∈ ps, '\n' ∉ p) :
    hasDescription (Text.join ['\n'] ps) = ps.any fun p => !p.isEmpty := by
  rw [Bool.eq_iff_iff,hasDescription_iff,List.any_eq_true]
  constructor
  · rintro ⟨c,hc,hne⟩
    obtain ⟨p,hp,hcp⟩ := (mem_join hne).mp hc
    refine ⟨p,hp,?_⟩
    have : p ≠ [] := List.ne_nil_of_mem hcp
    simpa using this
  · rintro ⟨p,hp,hne⟩
    obtain ⟨c,cs,rfl⟩ := List.exists_cons_of_ne_nil (by simpa using hne : p ≠ [])
    have hc : c ≠ '\n' := fun hc => h _ hp (by simp [hc])
    exact ⟨c,(mem_join hc).mpr ⟨_,hp,by simp⟩,hc⟩

theorem isBlank_join : Text.isBlank (Text.join ['\n'] ps) = ps.all Text.isBlank := by
  rw [Bool.eq_iff_iff,Text.isBlank_iff,List.all_eq_true]
  constructor
  · intro h p hp
    refine (Text.isBlank_iff p).mpr fun c hc => ?_
    by_cases hfeed : c = '\n'
    · rw [hfeed]
      rfl
    · exact h c ((mem_join hfeed).mpr ⟨p,hp,hc⟩)
  · intro h c hc
    by_cases hfeed : c = '\n'
    · rw [hfeed]
      rfl
    · obtain ⟨p,hp,hcp⟩ := (mem_join hfeed).mp hc
      exact (Text.isBlank_iff p).mp (h p hp) c hcp

theorem hasDescription_stripRight (t : Text) : hasDescription t.stripRight = !Text.isBlank t := by
  cases hb : Text.isBlank t with
  | true => rw [Text.stripRight_eq_nil_iff.mpr hb]; rfl
  | false =>
    have hnot : ¬∀ c ∈ t, Text.isSpace c = true := fun h => by simp [(Text.isBlank_iff t).mpr h] at hb
    simp only [Classical.not_forall,Bool.not_eq_true] at hnot
    obtain ⟨c,hc,hs⟩ := hnot
    obtain ⟨a,b,rfl⟩ := List.append_of_mem hc
    rw [Text.stripRight_append hs]
    refine hasDescription_iff.mpr ⟨c,by simp,?_⟩
    rintro rfl
    cases hs

end Behind

/-! ### The lines of an entry -/

section Written

variable {indent l t p : Text} {ps : List Text} {c : Char}

theorem mem_of_mem_plainLine (h : c ∈ plainLine indent l) : c ∈ l := by
  simp only [plainLine] at h
  split at h
  · cases h
  · exact List.mem_of_mem_drop h

theorem isBlank_plainLine (h : Text.isBlank l = true) : Text.isBlank (plainLine indent l) = true :=
  (Text.isBlank_iff _).mpr fun c hc => (Text.isBlank_iff l).mp h c (mem_of_mem_plainLine hc)

theorem plainLine_append (h : Text.isMargin t = false) : plainLine indent (indent ++ t) = t := by
  simp [plainLine,h]

theorem isBlank_append (h : Text.isMargin indent = true) :
    Text.isBlank (indent ++ t) = Text.isBlank t := by
  rw [Bool.eq_iff_iff,Text.isBlank_iff,Text.isBlank_iff]
  simp only [List.mem_append,or_imp,forall_and]
  exact ⟨And.right,fun ht => ⟨isSpace_of_mem_gap h,ht⟩⟩

/-- Something is left of a line if it is as deep as the entries and not only blanks and tabs. -/
theorem isKept_plainLine (h : Text.isMargin indent = true) (l : Text) :
    (isKept indent l && !(plainLine indent l).isEmpty) = (indent.isPrefixOf l && !Text.isMargin l) := by
  unfold isKept
  cases hp : indent.isPrefixOf l with
  | true =>
    obtain ⟨t,rfl⟩ := List.isPrefixOf_iff_prefix.mp hp
    rw [Text.isMargin_append,h]
    cases ht : Text.isMargin t with
    | true => simp [plainLine,ht]
    | false =>
      rw [plainLine_append ht]
      cases t with
      | nil => cases ht
      | cons c t => rfl
  | false =>
    cases l with
    | nil => simp [plainLine,Text.isMargin]
    | cons c l => rfl

theorem isLineBreak_of_solid (h : Text.isSpace c = false) : Text.isLineBreak c = false := by
  cases hb : Text.isLineBreak c with
  | true => rw [Text.isSpace_of_isLineBreak hb] at h; cases h
  | false => rfl

theorem isLineBreak_of_mem_gap (hg : Text.isMargin t = true) : ∀ c ∈ t, Text.isLineBreak c = false := by
  intro c hc
  obtain rfl | rfl := isMarginChar_iff.mp (List.all_eq_true.mp hg c hc) <;> rfl

namespace ArgumentEntry

variable (e : ArgumentEntry indent)

theorem exists_opening : ∃ c cs, e.opening = c :: cs ∧ Text.isSpace c = false := by
  obtain ⟨c,cs,hname,hc⟩ := e.exists_name
  exact ⟨c,cs ++ (e.gap ++ (e.hinted ++ [':'])),by simp [opening,hname],hc⟩

theorem isLineBreak_hinted : ∀ c ∈ e.hinted, Text.isLineBreak c = false := by
  cases h : e.hint with
  | none => simp [hinted,h]
  | some p =>
    obtain ⟨t,gap⟩ := p
    obtain ⟨hgap,ht⟩ := e.isHint t gap h
    simp only [hinted,h,List.cons_append,List.forall_mem_cons,List.forall_mem_append]
    exact ⟨rfl,fun c hc => (ht c hc).2.2,rfl,isLineBreak_of_mem_gap hgap⟩

theorem isLineBreak_opening : ∀ c ∈ e.opening, Text.isLineBreak c = false := by
  simp only [opening,List.forall_mem_append,List.forall_mem_singleton]
  refine ⟨fun c hc => isLineBreak_of_solid (Text.isInner_of_isIdentifier e.isName c hc).1,
    isLineBreak_of_mem_gap e.isGap,e.isLineBreak_hinted,rfl⟩

theorem feedless_opening : '\n' ∉ e.opening := fun h => by cases e.isLineBreak_opening _ h

theorem of_mem_plainBelow (h : l ∈ e.plainBelow) :
    '\n' ∉ l ∧ ∀ c u, l = c :: u → Text.isSpace c = true := by
  obtain ⟨m,hm,rfl⟩ := List.mem_map.mp h
  obtain ⟨hfeed,hhang⟩ := e.isBelow m (List.mem_filter.mp hm).1
  refine ⟨fun hmem => hfeed (mem_of_mem_plainLine hmem),fun c u hu => ?_⟩
  rcases hhang with hblank | ⟨d,v,rfl,hd⟩
  · exact (Text.isBlank_iff m).mp hblank c (mem_of_mem_plainLine (hu ▸ List.mem_cons_self))
  · rw [plainLine,List.drop_left] at hu
    split at hu
    · cases hu
    · rwa [← (List.cons.inj hu).1]

theorem any_plainBelow (h : Text.isMargin indent = true) : (e.plainBelow.any fun l => !l.isEmpty) =
    e.below.any fun l => indent.isPrefixOf l && !Text.isMargin l := by
  rw [plainBelow,List.any_map,List.any_filter]
  exact congrArg _ (funext fun l => isKept_plainLine h l)

theorem all_plainBelow (h : Text.isMargin indent = true) :
    e.plainBelow.all Text.isBlank = e.below.all Text.isBlank := by
  rw [Bool.eq_iff_iff,List.all_eq_true,List.all_eq_true,plainBelow,List.forall_mem_map]
  constructor
  · intro hall l hl
    rcases (e.isBelow l hl).2 with hblank | ⟨c,u,rfl,-⟩
    · exact hblank
    · have hplain := hall _ (List.mem_filter.mpr ⟨hl,by simp [isKept]⟩)
      rw [isBlank_append h]
      cases hm : Text.isMargin (c :: u) with
      | true => exact (Text.isBlank_iff _).mpr (isSpace_of_mem_gap hm)
      | false => rwa [plainLine_append hm] at hplain
  · intro hall l hl
    exact isBlank_plainLine (hall l (List.mem_filter.mp hl).1)

theorem feedless_behind : ∀ l ∈ e.rest :: e.plainBelow, '\n' ∉ l :=
  List.forall_mem_cons.mpr ⟨e.isRest,fun _ hl => (e.of_mem_plainBelow hl).1⟩

theorem mem_of_mem_behind (hc : c ∈ e.behind) (hne : c ≠ '\n') : ∃ l ∈ e.rest :: e.below, c ∈ l := by
  obtain ⟨l,hl,hcl⟩ := (mem_join hne).mp hc
  rcases List.mem_cons.mp hl with rfl | hl
  · exact ⟨e.rest,List.mem_cons_self,hcl⟩
  · obtain ⟨m,hm,rfl⟩ := List.mem_map.mp hl
    exact ⟨m,List.mem_cons_of_mem _ (List.mem_filter.mp hm).1,mem_of_mem_plainLine hcl⟩

theorem mem_behind_of_mem_text {isLast : Bool} (hc : c ∈ e.text isLast) (hne : c ≠ '\n') : c ∈ e.behind := by
  cases isLast with
  | true =>
    obtain ⟨u,hu⟩ := Text.stripRight_prefix e.behind
    rw [hu]
    exact List.mem_append_left u hc
  | false =>
    rcases List.mem_append.mp hc with hc | hc
    · exact hc
    · exact absurd (List.mem_singleton.mp hc) hne

theorem leavesTrace_eq (h : Text.isMargin indent = true) : e.leavesTrace = hasDescription e.behind := by
  rw [behind,hasDescription_join e.feedless_behind,List.any_cons,e.any_plainBelow h,leavesTrace]

theorem isDescribed_eq (h : Text.isMargin indent = true) :
    e.isDescribed = hasDescription e.behind.stripRight := by
  rw [hasDescription_stripRight,behind,isBlank_join,List.all_cons,e.all_plainBelow h,isDescribed,
    ← List.all_cons,List.not_all_eq_any_not]

/-- In every entry but the last, whatever follows the colon passes for a description. -/
theorem hasDescription_text (h : Text.isMargin indent = true) (isLast : Bool) :
    hasDescription (e.text isLast) = (e.isDescribed || (!isLast && e.leavesTrace)) := by
  rw [e.leavesTrace_eq h,e.isDescribed_eq h]
  cases isLast with
  | true => simp [text]
  | false =>
    have hfeed : hasDescription (e.behind ++ ['\n']) = hasDescription e.behind := by
      rw [Bool.eq_iff_iff,hasDescription_iff,hasDescription_iff]
      simp
    have hmore : hasDescription e.behind.stripRight = true → hasDescription e.behind = true := by
      obtain ⟨u,hu⟩ := Text.stripRight_prefix e.behind
      intro htrue
      obtain ⟨c,hc,hne⟩ := hasDescription_iff.mp htrue
      exact hasDescription_iff.mpr ⟨c,by rw [hu]; exact List.mem_append_left u hc,hne⟩
    simp only [text,Bool.false_eq_true,if_false,hfeed,Bool.not_false,Bool.true_and]
    cases hs : hasDescription e.behind.stripRight with
    | true => simp [hmore hs]
    | false => simp

end ArgumentEntry

/-! ### Below an entry, everything hangs -/

theorem hangs_of_feedless (h : '\n' ∉ t) : Hangs t := by
  rintro a c b rfl
  simp at h

theorem hangs_cons (hhead : c = '\n' → ∀ d u, t = d :: u → Text.isSpace d = true) (ht : Hangs t) :
    Hangs (c :: t) := by
  intro a d b heq
  cases a with
  | nil =>
    obtain ⟨hc,rfl⟩ := List.cons.inj heq
    exact hhead hc d b rfl
  | cons _ a => exact ht a d b (List.cons.inj heq).2

theorem hangs_feed (hp : '\n' ∉ p) (hhead : ∀ d u, t = d :: u → Text.isSpace d = true) (ht : Hangs t) :
    Hangs (p ++ '\n' :: t) := by
  induction p with
  | nil => exact hangs_cons (fun _ => hhead) ht
  | cons c p ih =>
    have hc : c ≠ '\n' := fun h => hp (by simp [h])
    exact hangs_cons (fun h => absurd h hc) (ih fun h => hp (List.mem_cons_of_mem c h))

theorem hangs_join (hp : '\n' ∉ p) (h : ∀ l ∈ ps, '\n' ∉ l ∧ ∀ c u, l = c :: u → Text.isSpace c = true) :
    Hangs (Text.join ['\n'] (p :: ps)) := by
  induction ps generalizing p with
  | nil => exact hangs_of_feedless hp
  | cons q qs ih =>
    obtain ⟨⟨hq,hhead⟩,hqs⟩ := List.forall_mem_cons.mp h
    have hnext : ∀ c u, Text.join ['\n'] (q :: qs) = c :: u → Text.isSpace c = true := by
      intro c u heq
      cases qs with
      | nil => exact hhead c u heq
      | cons r rs =>
        cases q with
        | nil =>
          obtain ⟨rfl,-⟩ := List.cons.inj heq
          rfl
        | cons d q =>
          obtain ⟨rfl,-⟩ := List.cons.inj heq
          exact hhead d q rfl
    simpa [Text.join] using hangs_feed hp hnext (ih hq hqs)

theorem ArgumentEntry.hangs_text (e : ArgumentEntry indent) (isLast : Bool) : Hangs (e.text isLast) := by
  cases isLast with
  | true =>
    have hbehind := hangs_join e.isRest fun _ hl => e.of_mem_plainBelow hl
    obtain ⟨u,hu⟩ := Text.stripRight_prefix e.behind
    intro a c b heq
    have hstrip : e.behind.stripRight = a ++ '\n' :: c :: b := heq
    exact hbehind a c (b ++ u) (by rw [← behind,hu,hstrip]; simp)
  | false =>
    have hlines : ∀ l ∈ e.plainBelow ++ [[]], '\n' ∉ l ∧ ∀ c u, l = c :: u → Text.isSpace c = true := by
      simp only [List.forall_mem_append,List.forall_mem_singleton]
      exact ⟨fun _ hl => e.of_mem_plainBelow hl,by simp⟩
    have htext : e.text false = Text.join ['\n'] (e.rest :: (e.plainBelow ++ [[]])) := by
      rw [← List.cons_append,Text.join_append (List.cons_ne_nil _ _) (List.cons_ne_nil _ _)]
      simp [text,behind,Text.join]
    rw [htext]
    exact hangs_join e.isRest hlines

end Written

end DocLint.Check.Sections
