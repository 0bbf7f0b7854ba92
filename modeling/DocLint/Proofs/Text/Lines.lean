import DocLint.Proofs.Text.Opening

/-!
Where a text is broken into lines: behind every line feed, and nowhere in a piece without line breaks.
Lines that end with line feeds only are broken further where another line break stands within.
-/

set_option autoImplicit false

namespace DocLint.Text

variable {a b l t : Text} {c : Char} {ls : List Text}

theorem isSpace_of_isLineBreak (h : isLineBreak c = true) : isSpace c = true := by
  simp only [isLineBreak,Bool.or_eq_true,Bool.and_eq_true,decide_eq_true_eq,beq_iff_eq] at h
  simp only [isSpace]
  split <;> simp only [Bool.or_eq_true,Bool.and_eq_true,decide_eq_true_eq,beq_iff_eq] <;> omega

theorem splitLines_return (t : Text) : splitLines ('\r' :: '\n' :: t) = ['\r', '\n'] :: splitLines t := by
  rw [splitLines]

theorem splitLines_break (hb : isLineBreak c = true) (hc : c = '\r' → t.head? ≠ some '\n') :
    splitLines (c :: t) = [c] :: splitLines t := by
  rw [splitLines.eq_3]
  · rw [if_pos hb]
  · rintro cs rfl rfl
    exact hc rfl rfl

theorem splitLines_plain (hb : isLineBreak c = false) (h : splitLines t = l :: ls) :
    splitLines (c :: t) = (c :: l) :: ls := by
  rw [splitLines.eq_3]
  · simp [hb,h]
  · rintro cs rfl rfl
    cases hb

theorem splitLines_feed_plain (hb : isLineBreak c = false)
    (h : splitLines (a ++ '\n' :: b) = splitLines (a ++ ['\n']) ++ splitLines b) :
    splitLines (c :: a ++ '\n' :: b) = splitLines (c :: a ++ ['\n']) ++ splitLines b := by
  obtain ⟨l,ls,hl⟩ : ∃ l ls, splitLines (a ++ ['\n']) = l :: ls := by
    cases a with
    | nil => exact ⟨_,_,rfl⟩
    | cons d a =>
      obtain ⟨l,ls,hl⟩ := splitLines_cons d (a ++ ['\n'])
      exact ⟨_,_,hl⟩
  rw [hl,List.cons_append] at h
  rw [List.cons_append,splitLines_plain hb h,List.cons_append,splitLines_plain hb hl]
  rfl

theorem splitLines_feed_cons (hc : c = '\r' → ∃ d ds, a = d :: ds ∧ d ≠ '\n')
    (h : splitLines (a ++ '\n' :: b) = splitLines (a ++ ['\n']) ++ splitLines b) :
    splitLines (c :: a ++ '\n' :: b) = splitLines (c :: a ++ ['\n']) ++ splitLines b := by
  cases hb : isLineBreak c with
  | false => exact splitLines_feed_plain hb h
  | true =>
    have hhead (t : Text) : c = '\r' → (a ++ '\n' :: t).head? ≠ some '\n' := fun hr => by
      obtain ⟨d,ds,rfl,hd⟩ := hc hr
      simpa using hd
    rw [List.cons_append,splitLines_break hb (hhead b),h,List.cons_append,splitLines_break hb (hhead [])]
    rfl

/-- A line feed ends a line, whatever follows; a carriage return before it belongs to it. -/
theorem splitLines_feed (a b : Text) :
    splitLines (a ++ '\n' :: b) = splitLines (a ++ ['\n']) ++ splitLines b := by
  match a with
  | [] => simp [splitLines,isLineBreak]
  | [c] =>
    by_cases hc : c = '\r'
    · simp [hc,splitLines_return,splitLines]
    · exact splitLines_feed_cons (fun h => absurd h hc) (splitLines_feed [] b)
  | c :: d :: ds =>
    by_cases hpair : c = '\r' ∧ d = '\n'
    · obtain ⟨rfl,rfl⟩ := hpair
      simp only [List.cons_append,splitLines_return,splitLines_feed ds b]
    · exact splitLines_feed_cons (fun hc => ⟨d,ds,rfl,fun hd => hpair ⟨hc,hd⟩⟩)
        (splitLines_feed (d :: ds) b)

theorem splitLines_cons_feed (t : Text) : splitLines ('\n' :: t) = ['\n'] :: splitLines t :=
  splitLines_feed [] t

theorem splitLines_solid_append (ha : ∀ c ∈ a, isLineBreak c = false) (h : splitLines b = l :: ls) :
    splitLines (a ++ b) = (a ++ l) :: ls := by
  induction a with
  | nil => exact h
  | cons c a ih =>
    obtain ⟨hc,ha⟩ := List.forall_mem_cons.mp ha
    exact splitLines_plain hc (ih ha)

theorem splitLines_solid (ha : ∀ c ∈ a, isLineBreak c = false) (hne : a ≠ []) : splitLines a = [a] := by
  induction a with
  | nil => exact absurd rfl hne
  | cons c a ih =>
    obtain ⟨hc,ha⟩ := List.forall_mem_cons.mp ha
    cases a with
    | nil => simp [splitLines,hc]
    | cons d a => exact splitLines_plain hc (ih ha (List.cons_ne_nil d a))

/-! ### Lines within lines -/

def Unbroken (t : Text) : Prop :=
  ∃ body ending, t = body ++ ending ∧ (∀ c ∈ body, isLineBreak c = false) ∧
    (ending = [] ∨ (∃ c, ending = [c] ∧ isLineBreak c = true) ∨ ending = ['\r', '\n'])

theorem splitLines_eq_nil_iff : splitLines t = [] ↔ t = [] := by
  cases t with
  | nil => simp [splitLines]
  | cons c t =>
    obtain ⟨l,ls,h⟩ := splitLines_cons c t
    simp [h]

theorem unbroken_cons (hc : isLineBreak c = false) (h : Unbroken t) : Unbroken (c :: t) := by
  obtain ⟨body,ending,rfl,hbody,hending⟩ := h
  exact ⟨c :: body,ending,rfl,List.forall_mem_cons.mpr ⟨hc,hbody⟩,hending⟩

theorem unbroken_of_splitLines (h : splitLines t = t :: ls) : Unbroken t := by
  fun_induction splitLines t generalizing ls with
  | case1 => cases h
  | case2 cs ih =>
    obtain rfl : cs = [] := by simpa using (List.cons.inj h).1
    exact ⟨[],_,rfl,by simp,.inr (.inr rfl)⟩
  | case3 c cs _ hb ih =>
    obtain rfl : cs = [] := by simpa using (List.cons.inj h).1
    exact ⟨[],_,rfl,by simp,.inr (.inl ⟨c,rfl,hb⟩)⟩
  | case4 c cs _ hb heq ih =>
    obtain rfl : cs = [] := splitLines_eq_nil_iff.mp heq
    exact ⟨[c],[],rfl,by simpa using hb,.inl rfl⟩
  | case5 c cs _ hb l ls heq ih =>
    obtain rfl : l = cs := by simpa using (List.cons.inj h).1
    exact unbroken_cons (by simpa using hb) (ih heq)

/-- A text is one line exactly if no line break stands in it but at its end. -/
theorem splitLines_eq_self_iff (hne : t ≠ []) : splitLines t = [t] ↔ Unbroken t := by
  refine ⟨unbroken_of_splitLines,?_⟩
  rintro ⟨body,ending,rfl,hbody,rfl | ⟨c,rfl,hc⟩ | rfl⟩
  · rw [List.append_nil] at hne ⊢
    exact splitLines_solid hbody hne
  · exact splitLines_solid_append hbody (splitLines_break hc (by simp))
  · exact splitLines_solid_append hbody (splitLines_return [])

instance (t : Text) : Decidable (Unbroken t) :=
  decidable_of_iff (t = [] ∨ splitLines t = [t]) <| by
    by_cases hne : t = []
    · subst hne
      exact ⟨fun _ => ⟨[],[],rfl,by simp,.inl rfl⟩,fun _ => .inl rfl⟩
    · rw [← splitLines_eq_self_iff hne]
      simp [hne]

inductive Lined : List Text → Prop
  | nil : Lined []
  | last {l : Text} (hne : l ≠ []) (h : '\n' ∉ l) : Lined [l]
  | cons {a : Text} {ls : List Text} (h : '\n' ∉ a) (rest : Lined ls) : Lined ((a ++ ['\n']) :: ls)

theorem Lined.cons_char (hc : c ≠ '\n') (h : Lined (l :: ls)) : Lined ((c :: l) :: ls) := by
  cases h with
  | last hne h => exact .last (List.cons_ne_nil c l) (by simp [hc.symm,h])
  | @cons a _ h rest => exact .cons (a := c :: a) (by simp [hc.symm,h]) rest

theorem lined_lines (t : Text) : Lined (lines t) := by
  fun_induction lines t with
  | case1 => exact .nil
  | case2 cs ih => exact .cons (a := []) (by simp) ih
  | case3 c cs hc heq ih => exact .last (List.cons_ne_nil c []) (by simpa using Ne.symm hc)
  | case4 c cs hc l ls heq ih => exact (heq ▸ ih).cons_char hc

theorem Lined.of_append {ls' : List Text} (h : Lined (ls ++ ls')) : Lined ls ∧ Lined ls' := by
  induction ls with
  | nil => exact ⟨.nil,h⟩
  | cons l ls ih =>
    cases hls : ls ++ ls' with
    | nil =>
      obtain ⟨rfl,rfl⟩ := List.append_eq_nil_iff.mp hls
      exact ⟨h,.nil⟩
    | cons l' rest =>
      rw [List.cons_append,hls] at h
      cases h with
      | cons hl hrest =>
        obtain ⟨h₁,h₂⟩ := ih (hls ▸ hrest)
        exact ⟨.cons hl h₁,h₂⟩

theorem Lined.ends_in_feed {ls' : List Text} (h : Lined (ls ++ l :: ls')) (hmore : ls' ≠ []) :
    ∃ body, l = body ++ ['\n'] := by
  cases h.of_append.2 with
  | last _ _ => exact absurd rfl hmore
  | @cons body _ _ _ => exact ⟨body,rfl⟩

theorem lines_append_feed (h : '\n' ∉ a) (b : Text) : lines (a ++ '\n' :: b) = (a ++ ['\n']) :: lines b := by
  induction a with
  | nil => simp [lines]
  | cons c a ih =>
    have hc := List.ne_of_not_mem_cons h
    rw [List.cons_append,lines,if_neg (Ne.symm hc),ih (List.not_mem_of_not_mem_cons h)]
    rfl

theorem lines_last (h : '\n' ∉ a) (hne : a ≠ []) : lines a = [a] := by
  induction a with
  | nil => exact absurd rfl hne
  | cons c a ih =>
    have hc := List.ne_of_not_mem_cons h
    cases a with
    | nil => simp [lines,Ne.symm hc]
    | cons d a => rw [lines,if_neg (Ne.symm hc),ih (List.not_mem_of_not_mem_cons h) (List.cons_ne_nil d a)]

theorem Lined.lines_flatten (h : Lined ls) : lines ls.flatten = ls := by
  induction h with
  | nil => rfl
  | last hne h => simpa using lines_last h hne
  | cons h _ ih =>
    rw [List.flatten_cons,List.append_assoc,List.singleton_append,lines_append_feed h,ih]

theorem Lined.splitLines_flatten (h : Lined ls) : splitLines ls.flatten = ls.flatMap splitLines := by
  induction h with
  | nil => rfl
  | last _ _ => simp
  | cons _ _ ih =>
    rw [List.flatten_cons,List.append_assoc,List.singleton_append,splitLines_feed,ih,List.flatMap_cons]

theorem Lined.ne_nil (h : Lined ls) (hl : l ∈ ls) : l ≠ [] := by
  induction h with
  | nil => cases hl
  | last hne _ => exact List.mem_singleton.mp hl ▸ hne
  | cons _ _ ih =>
    rcases List.mem_cons.mp hl with rfl | hl
    · simp
    · exact ih hl

theorem stripRight_prefix (t : Text) : ∃ u, t = stripRight t ++ u := by
  refine ⟨(t.reverse.takeWhile isSpace).reverse,?_⟩
  rw [stripRight,← List.reverse_append,List.takeWhile_append_dropWhile,List.reverse_reverse]

theorem stripRight_eq_nil_iff : stripRight t = [] ↔ isBlank t = true := by
  rw [isBlank_iff,stripRight,List.reverse_eq_nil_iff,dropWhile_eq_nil_iff]
  simp

end DocLint.Text
