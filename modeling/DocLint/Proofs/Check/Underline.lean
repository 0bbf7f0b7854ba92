import DocLint.Proofs.Check.Sections

/-!
The lines below the header of a section: blank ones, perhaps an underline, and the content. The
findings on them tell exactly how these parts look.
-/

set_option autoImplicit false

namespace DocLint.Check.Sections

def underline? (following : List Text) : Option Text :=
  (following.find? fun l => !Text.isBlank l).filter fun l => l.strip.all (· == '-')

def blanksAbove (following : List Text) : List Text := following.takeWhile Text.isBlank

def contentOf (following : List Text) : List Text :=
  match underline? following with
  | some _ => following.drop ((blanksAbove following).length + 1)
  | none => following

/-- What is wrong with the content of a section: there is none, or it begins with a blank line. -/
def contentRules (content : List Text) : List Rule :=
  if content.all Text.isBlank then [.D414]
  else if content.head?.any Text.isBlank then [.D412]
  else []

/-- The rules that an underline breaks; without one, the rule that there is one. -/
def underlineRules (name indent : Text) (following : List Text) : List Rule :=
  match underline? following with
  | none => [.D407]
  | some line =>
    (if blanksAbove following = [] then [] else [.D408]) ++
      (if line.strip.length = name.length then [] else [.D409]) ++
      if Text.before indent line.leadingSpace then [.D215] else []

section Parts

variable {following above rest : List Text} {name indent line : Text}

/-- Lines that are not all blank have a first one that is not, behind blank ones. -/
theorem exists_line (h : following.all Text.isBlank = false) : ∃ above line rest,
    following = above ++ line :: rest ∧ (∀ l ∈ above, Text.isBlank l = true) ∧
      Text.isBlank line = false := by
  have hfind : (following.find? fun l => !Text.isBlank l).isSome = true := by simpa using h
  obtain ⟨line,hline⟩ := Option.isSome_iff_exists.mp hfind
  obtain ⟨hl,above,rest,rfl,ha⟩ := List.find?_eq_some_iff_append.mp hline
  exact ⟨above,line,rest,rfl,by simpa using ha,by simpa using hl⟩

theorem blanksAbove_line (ha : ∀ l ∈ above, Text.isBlank l = true) (hl : Text.isBlank line = false) :
    blanksAbove (above ++ line :: rest) = above := by
  rw [blanksAbove,List.takeWhile_append_of_pos ha,List.takeWhile_cons_of_neg (by simp [hl]),
    List.append_nil]

theorem isUnderline_eq (h : Text.isBlank line = false) :
    isUnderline line = line.strip.all (· == '-') := by
  have hne : line.strip.isEmpty = false := h
  simp only [isUnderline,hne,Bool.not_false,Bool.true_and]
  rfl

theorem underline?_blank (h : following.all Text.isBlank = true) : underline? following = none := by
  have hnone : following.find? (fun l => !Text.isBlank l) = none := by
    simpa using List.all_eq_true.mp h
  simp [underline?,hnone]

theorem underline?_line (ha : ∀ l ∈ above, Text.isBlank l = true) (hl : Text.isBlank line = false) :
    underline? (above ++ line :: rest) = if isUnderline line then some line else none := by
  have hnone : above.find? (fun l => !Text.isBlank l) = none := by simpa using ha
  have hfind : (above ++ line :: rest).find? (fun l => !Text.isBlank l) = some line := by
    simp [List.find?_append,hnone,hl]
  rw [underline?,hfind,isUnderline_eq hl]
  rfl

theorem rules_underlineAt (h : underline? following = some line) :
    (underlineAt name indent line (blanksAbove following).length).map (·.rule) =
      underlineRules name indent following := by
  have hblanks : 0 < (blanksAbove following).length ↔ blanksAbove following ≠ [] := List.length_pos_iff
  simp only [underlineAt,underlineRules,h,List.map_append,hblanks,ne_eq,ite_not]
  split <;> split <;> split <;> rfl

theorem rules_contentBehindUnderline (name : Text) (above : List Text) (line : Text)
    (rest : List Text) :
    (Outcome.ofExcept (contentBehindUnderline name (above ++ line :: rest)
      (above.length + 1))).findings.map (·.rule) = contentRules rest := by
  have hdrop : (above ++ line :: rest).drop (above.length + 1) = rest := by simp [List.drop_append]
  unfold contentBehindUnderline contentRules
  rw [hdrop]
  cases rest with
  | nil => simp [Outcome.ofExcept,pure,Except.pure,Rule.with]
  | cons l ls =>
    have hline : lineAt (above ++ line :: l :: ls) (above.length + 1) = .ok l := by
      simp [lineAt]
    have hlt : above.length + 1 < (above ++ line :: l :: ls).length := by simp
    rw [if_pos hlt,hline,ok_bind]
    cases hl : Text.isBlank l with
    | true => cases hall : ls.all Text.isBlank <;> simp [hl,hall,Outcome.ofExcept,pure,Except.pure,Rule.with]
    | false => simp [hl,Outcome.ofExcept,pure,Except.pure]

theorem all_isBlank_append (hl : Text.isBlank line = false) :
    (above ++ line :: rest).all Text.isBlank = false := by simp [hl]

theorem contentRules_append (ha : ∀ l ∈ above, Text.isBlank l = true) (hl : Text.isBlank line = false) :
    contentRules (above ++ line :: rest) = if above = [] then [] else [.D412] := by
  rw [contentRules,all_isBlank_append hl]
  cases above with
  | nil => simp [hl]
  | cons l ls => simp [ha l]

/-- The rules that the lines below a header break: those of the underline, then those of the
content. -/
theorem rules_underline (name indent : Text) (following : List Text) :
    (underline name indent following).findings.map (·.rule) =
      underlineRules name indent following ++ contentRules (contentOf following) := by
  cases hall : following.all Text.isBlank with
  | true =>
    simp only [underline,hall,underlineRules,contentOf,underline?_blank hall,contentRules,if_true]
    rfl
  | false =>
    obtain ⟨above,line,rest,rfl,ha,hl⟩ := exists_line hall
    have habove := @blanksAbove_line above rest line ha hl
    have hcount : Layout.leadingBlanks (above ++ line :: rest) = above.length :=
      congrArg List.length habove
    have hline : lineAt (above ++ line :: rest) above.length = .ok line := by simp [lineAt]
    have hfound := @underline?_line above rest line ha hl
    simp only [underline,hall,hcount,hline,Bool.false_eq_true,if_false]
    cases hu : isUnderline line with
    | false =>
      rw [hu,if_neg Bool.false_ne_true] at hfound
      simp only [Bool.not_false,if_true,underlineRules,contentOf,hfound,contentRules_append ha hl]
      cases above <;> rfl
    | true =>
      rw [hu,if_pos rfl] at hfound
      have hdrop : (above ++ line :: rest).drop (above.length + 1) = rest := by simp [List.drop_append]
      have hbehind := rules_contentBehindUnderline name above line rest
      have hat := @rules_underlineAt _ name indent line hfound
      rw [habove] at hat
      simp only [Bool.not_true,Bool.false_eq_true,if_false,contentOf,hfound,habove,hdrop]
      rw [← hbehind,← hat]
      exact List.map_append

theorem lines_of_underline (h : underline? following = some line) :
    following = blanksAbove following ++ line :: contentOf following := by
  cases hall : following.all Text.isBlank with
  | true => simp [underline?_blank hall] at h
  | false =>
    obtain ⟨above,l,rest,rfl,ha,hl⟩ := exists_line hall
    have hsome := h
    rw [underline?_line ha hl,Option.ite_none_right_eq_some] at hsome
    obtain ⟨-,hsame⟩ := hsome
    rw [contentOf,h,blanksAbove_line ha hl]
    simp [List.drop_append,Option.some.inj hsame]

end Parts

section Membership

variable {r : Rule} {content following : List Text} {name indent line : Text}

theorem mem_contentRules : r ∈ contentRules content ↔
    (r = .D414 ∧ ∀ l ∈ content, Text.isBlank l = true) ∨
    (r = .D412 ∧ (∃ l ∈ content, Text.isBlank l = false) ∧
      ∃ l, content.head? = some l ∧ Text.isBlank l = true) := by
  have hall : (∀ l ∈ content, Text.isBlank l = true) ↔ content.all Text.isBlank = true :=
    List.all_eq_true.symm
  have hsome : (∃ l ∈ content, Text.isBlank l = false) ↔ content.all Text.isBlank = false := by
    simp
  have hhead : (∃ l, content.head? = some l ∧ Text.isBlank l = true) ↔
      content.head?.any Text.isBlank = true := by simp [Option.any_eq_true]
  rw [hall,hsome,hhead,contentRules]
  cases content.all Text.isBlank <;> cases content.head?.any Text.isBlank <;> simp

theorem mem_underlineRules : r ∈ underlineRules name indent following ↔
    (r = .D407 ∧ underline? following = none) ∨
    ∃ line, underline? following = some line ∧
      ((r = .D408 ∧ blanksAbove following ≠ []) ∨ (r = .D409 ∧ line.strip.length ≠ name.length) ∨
        (r = .D215 ∧ Text.before indent line.leadingSpace = true)) := by
  unfold underlineRules
  cases underline? following with
  | none => simp
  | some line => simp [and_comm]

theorem rules_sublist (name indent : Text) (following : List Text) :
    ((underline name indent following).findings.map (·.rule)).Sublist
      [.D407, .D408, .D409, .D215, .D414, .D412] := by
  have hcontent : (contentRules (contentOf following)).Sublist [.D414, .D412] := by
    unfold contentRules
    split
    · decide
    · split <;> decide
  have hunderline : (underlineRules name indent following).Sublist [.D407, .D408, .D409, .D215] := by
    unfold underlineRules
    split
    · decide
    · split <;> split <;> split <;> decide
  rw [rules_underline]
  exact hunderline.append hcontent

end Membership

/-- What the findings on the lines below a header tell, by the rules that they are about. -/
structure Tells (name indent : Text) (following : List Text) (rules : List Rule) : Prop where
  parts : ∀ line, underline? following = some line →
    following = blanksAbove following ++ line :: contentOf following
  missing : .D407 ∈ rules ↔ underline? following = none
  apart : .D408 ∈ rules ↔ ∃ line, underline? following = some line ∧ blanksAbove following ≠ []
  length : .D409 ∈ rules ↔
    ∃ line, underline? following = some line ∧ line.strip.length ≠ name.length
  depth : .D215 ∈ rules ↔
    ∃ line, underline? following = some line ∧ Text.before indent line.leadingSpace = true
  empty : .D414 ∈ rules ↔ ∀ l ∈ contentOf following, Text.isBlank l = true
  late : .D412 ∈ rules ↔ (∃ l ∈ contentOf following, Text.isBlank l = false) ∧
    ∃ l, (contentOf following).head? = some l ∧ Text.isBlank l = true
  exclusive : ¬(.D412 ∈ rules ∧ .D414 ∈ rules)
  once : rules.Nodup
  others : ∀ r ∈ rules, r ∈ [Rule.D407, .D408, .D409, .D215, .D414, .D412]

/-- The findings on the lines below a header tell exactly whether there is an underline and how it
looks, and whether there is content and how it begins. -/
theorem underline_tells (name indent : Text) (following : List Text) :
    (underline name indent following).IsComplete ∧
      Tells name indent following ((underline name indent following).findings.map (·.rule)) := by
  refine ⟨underline_complete name indent following,?_⟩
  have hsub := rules_sublist name indent following
  have hmem (r : Rule) : r ∈ (underline name indent following).findings.map (·.rule) ↔
      r ∈ underlineRules name indent following ∨ r ∈ contentRules (contentOf following) := by
    rw [rules_underline,List.mem_append]
  have hempty : .D414 ∈ (underline name indent following).findings.map (·.rule) ↔
      ∀ l ∈ contentOf following, Text.isBlank l = true := by
    simp [hmem,mem_underlineRules,mem_contentRules]
  have hlate : .D412 ∈ (underline name indent following).findings.map (·.rule) ↔
      (∃ l ∈ contentOf following, Text.isBlank l = false) ∧
        ∃ l, (contentOf following).head? = some l ∧ Text.isBlank l = true := by
    simp [hmem,mem_underlineRules,mem_contentRules]
  constructor
  case parts => exact fun line => lines_of_underline
  case missing => simp [hmem,mem_underlineRules,mem_contentRules]
  case apart => simp [hmem,mem_underlineRules,mem_contentRules]
  case length => simp [hmem,mem_underlineRules,mem_contentRules]
  case depth => simp [hmem,mem_underlineRules,mem_contentRules]
  case empty => exact hempty
  case late => exact hlate
  case exclusive =>
    rintro ⟨h,h'⟩
    obtain ⟨⟨l,hl,hblank⟩,-⟩ := hlate.mp h
    rw [hempty.mp h' l hl] at hblank
    cases hblank
  case once => exact hsub.nodup (by decide)
  case others => exact fun r hr => hsub.subset hr

end DocLint.Check.Sections
