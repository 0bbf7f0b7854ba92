import DocLint.Check.Sections
import DocLint.Proofs.Grammar.ParameterOrder
import DocLint.Proofs.Lists
import DocLint.Resources.Builtin

/-!
Which parameters of a function are reported as undocumented. Parameters that are only positional are never
asked for, and for a method the first one of the others counts as the receiver, whatever it is.
-/

set_option autoImplicit false

namespace DocLint

open Grammar (ParameterGroups ParameterRole)

/-! ### Parameters that are asked for -/

namespace Grammar.ParameterGroups

variable (g : ParameterGroups)

def nameable (isBound : Bool) : List Text :=
  (g.positional ++ g.ordinary).drop (if isBound then 1 else 0) ++ g.keywordOnly

def asked (isBound : Bool) : List Text := (g.ordinary ++ g.keywordOnly).drop (if isBound then 1 else 0)

theorem names_block (role role' : ParameterRole) (names : List Text) :
    ((names.map (Prod.mk role)).filter fun p => p.1 == role').map (·.2) = if role = role' then names else [] := by
  by_cases h : role = role' <;> simp [List.filter_map,Function.comp_def,h]

variable {g} {ps : List Grammar.Parameter} {isBound : Bool} {n : Text}

theorem names_eq (h : ps.map Grammar.Parameter.tagged = g.written) (role : ParameterRole) :
    (ps.filter fun p => p.role == role).map Grammar.Parameter.name =
      (g.written.filter fun p => p.1 == role).map (·.2) := by
  rw [← h,List.filter_map,List.map_map]
  rfl

theorem ordinary_eq : (g.written.filter fun p => p.1 == .ordinary).map (·.2) = g.ordinary := by
  simp [written,names_block]

theorem keywordOnly_eq : (g.written.filter fun p => p.1 == .keywordOnly).map (·.2) = g.keywordOnly := by
  simp [written,names_block]

theorem parameterNamesOf_eq [Resources] {source : Text} (hp : openingParameters? source = some ps)
    (h : ps.map Grammar.Parameter.tagged = g.written) :
    parameterNamesOf source = .ok (g.ordinary ++ g.keywordOnly) := by
  unfold openingParameters? at hp
  split at hp
  · rename_i hparse
    cases hp
    rw [parameterNamesOf,hparse]
    simp only [names_eq h,ordinary_eq,keywordOnly_eq]
  · cases hp

theorem mem_of_nameable (h : n ∈ g.nameable isBound) :
    n ∈ g.positional ∨ n ∈ g.ordinary ++ g.keywordOnly := by
  rcases List.mem_append.mp h with h | h
  · have hmem := List.mem_of_mem_drop h
    simp only [List.mem_append] at hmem ⊢
    exact hmem.imp_right Or.inl
  · exact Or.inr (List.mem_append_right _ h)

theorem mem_nameable_of_asked (h : n ∈ g.asked isBound) : n ∈ g.nameable isBound := by
  cases isBound with
  | false =>
    have hmem : n ∈ g.ordinary ++ g.keywordOnly := h
    simp only [nameable,Bool.false_eq_true,if_false,List.drop_zero,List.append_assoc]
    exact List.mem_append_right _ hmem
  | true =>
    cases hpos : g.positional with
    | cons p ps =>
      simp only [nameable,hpos,if_true,List.cons_append,List.drop_one,List.tail_cons,List.append_assoc]
      exact List.mem_append_right _ (List.mem_of_mem_drop h)
    | nil =>
      cases hord : g.ordinary with
      | nil =>
        simp only [asked,hord,List.nil_append] at h
        exact List.mem_append_right _ (List.mem_of_mem_drop h)
      | cons o os => simpa [asked,nameable,hord,hpos] using h

/-- A parameter is left out only if it is positional, or the first of the others of a method. -/
theorem of_not_asked (h : n ∈ g.nameable isBound) (hask : n ∉ g.asked isBound) :
    n ∈ g.positional ∨ isBound = true ∧ (g.ordinary ++ g.keywordOnly).head? = some n := by
  refine (mem_of_nameable h).imp_right fun hmem => ?_
  cases isBound with
  | false => exact absurd hmem hask
  | true =>
    rw [asked,if_pos rfl,List.drop_one] at hask
    cases hnames : g.ordinary ++ g.keywordOnly with
    | nil => simp [hnames] at hmem
    | cons o os =>
      rw [hnames] at hmem hask
      rcases List.mem_cons.mp hmem with rfl | hmem
      · exact ⟨rfl,rfl⟩
      · exact absurd hmem hask

theorem asked_eq_nameable (h : g.positional = []) (hfirst : isBound = true → g.ordinary ≠ []) :
    g.asked isBound = g.nameable isBound := by
  cases isBound with
  | false => simp [asked,nameable,h]
  | true =>
    obtain ⟨o,os,ho⟩ := List.exists_cons_of_ne_nil (hfirst rfl)
    simp [asked,nameable,h,ho]

end Grammar.ParameterGroups

/-! ### The names in order -/

namespace Text

theorem not_lt_of_not_before {a b : Text} (h : (!before b a) = true) : ¬b < a :=
  of_decide_eq_false ((Bool.not_eq_true' _).mp h)

theorem not_before_of_not_lt {a b : Text} (h : ¬b < a) : (!before b a) = true :=
  (Bool.not_eq_true' _).mpr (decide_eq_false h)

theorem ascending_mergeSort {l : List Text} (h : l.Nodup) :
    (l.mergeSort fun a b => !before b a).Pairwise fun a b => before a b = true := by
  have hsorted := @List.pairwise_mergeSort Text (fun a b => !before b a)
    (fun a b c hab hbc =>
      not_before_of_not_lt (List.le_trans (not_lt_of_not_before hab) (not_lt_of_not_before hbc)))
    (fun a b => Bool.or_eq_true_iff.mpr
      ((List.le_total a b).imp not_before_of_not_lt not_before_of_not_lt)) l
  have hdiffer := (List.mergeSort_perm l fun a b => !before b a).nodup_iff.mpr h
  refine (hsorted.and hdiffer).imp fun ⟨hle,hne⟩ => ?_
  refine decide_eq_true (Classical.not_not.mp fun hnot => ?_)
  exact hne (List.le_antisymm (not_lt_of_not_before hle) hnot)

end Text

/-! ### The report -/

def Definition.isBound (d : Definition) : Bool := d.kind == .method && !d.isStatic

namespace Check.Sections

def isMissing (documented : List Text) (n : Text) : Bool := !n.isUnderscored && !documented.contains n

def reportOf (d : Definition) (listed : List Text) : List Finding :=
  if listed.isEmpty then [] else [Rule.D417.with [Text.join ", " listed, d.name]]

theorem undocumented_eq (documented names : List Text) (d : Definition) :
    ∃ listed, undocumented documented names d = reportOf d listed ∧
      listed.Pairwise (fun a b => Text.before a b = true) ∧
      ∀ n, n ∈ listed ↔ n ∈ names.drop (if d.isBound then 1 else 0) ∧ isMissing documented n = true := by
  have hdrop : (if d.kind == .method && !d.isStatic then names.drop 1 else names) =
      names.drop (if d.isBound then 1 else 0) := by
    unfold Definition.isBound
    split <;> rfl
  let missing := ((names.drop (if d.isBound then 1 else 0)).filter (isMissing documented)).eraseDups
  have hperm := List.mergeSort_perm missing fun a b => !Text.before b a
  refine ⟨missing.mergeSort fun a b => !Text.before b a,?_,Text.ascending_mergeSort (nodup_eraseDups _),?_⟩
  · rw [undocumented,hdrop,reportOf,hperm.isEmpty_eq]
    rfl
  · intro n
    rw [hperm.mem_iff,List.mem_eraseDups,List.mem_filter]

structure Lists (d : Definition) (g : ParameterGroups) (documented listed : List Text) : Prop where
  ascending : listed.Pairwise fun a b => Text.before a b = true
  mem_iff : ∀ n, n ∈ listed ↔ n ∈ g.asked d.isBound ∧ isMissing documented n = true
  sound : ∀ n ∈ listed, n ∈ g.nameable d.isBound ∧ isMissing documented n = true
  /-- What should be listed and is not is positional, or the first of the other parameters of a method. -/
  gap : ∀ n ∈ g.nameable d.isBound, isMissing documented n = true → n ∉ listed →
    n ∈ g.positional ∨ d.isBound = true ∧ (g.ordinary ++ g.keywordOnly).head? = some n
  /-- Without positional parameters, and with an ordinary one as receiver, nothing is left out. -/
  complete : g.positional = [] → (d.isBound = true → g.ordinary ≠ []) →
    ∀ n, n ∈ listed ↔ n ∈ g.nameable d.isBound ∧ isMissing documented n = true

/-- What is reported about the parameters of a function whose source text can be read. -/
theorem missingParameters_lists [Resources] {m : Module} {ancestors : List Definition} {d : Definition}
    {ps : List Grammar.Parameter} (hd : d.kind.isClass = false)
    (hp : Grammar.openingParameters? (Subject.definition m ancestors d).source.stripLeft = some ps)
    (documented : List Text) : ∃ g : ParameterGroups, ps.map Grammar.Parameter.tagged = g.written ∧
      ∃ listed, missingParameters documented (.definition m ancestors d) = .ok (reportOf d listed) ∧
        Lists d g documented listed := by
  obtain ⟨g,hg⟩ : Grammar.InOrder ps := Grammar.inOrder_openingParameters hp
  obtain ⟨listed,hreport,hascending,hexact⟩ := undocumented_eq documented (g.ordinary ++ g.keywordOnly) d
  refine ⟨g,hg,listed,?_,?_⟩
  · simp only [missingParameters,hd,Bool.false_eq_true,if_false,g.parameterNamesOf_eq hp hg,hreport]
  · exact {
      ascending := hascending
      mem_iff := hexact
      sound := fun n hn => ((hexact n).mp hn).imp_left g.mem_nameable_of_asked
      gap := fun n hn hmissing hnot => g.of_not_asked hn fun hask => hnot ((hexact n).mpr ⟨hask,hmissing⟩)
      complete := fun hpos hfirst n => by
        rw [← g.asked_eq_nameable hpos hfirst]
        exact hexact n }

def moduleOf (source : List Text) : Module :=
  { name := "module.py", source, start := 1, stop := source.length, docstring := none, skipped := []
    children := [], exports := none, exportFault := none, features := [] }

def methodOf (m : Module) : Definition :=
  { kind := .method, name := "m", start := 2, stop := m.stop, decorators := [], docstring := none
    skipped := [], children := [] }

def variadic : Module :=
  moduleOf ["class A:\n", "    def m(self, key, _skip, *rest, b, a: int = 1, **options):\n", "        pass\n"]

open Resources.Builtin

theorem missingParameters_lists_variadic :
    (methodOf variadic).kind.isClass = false ∧
      (Grammar.openingParameters? (Subject.definition variadic [] (methodOf variadic)).source.stripLeft).isSome ∧
      ∃ listed, missingParameters ["b"] (.definition variadic [] (methodOf variadic)) =
          .ok (reportOf (methodOf variadic) listed) ∧
        ∀ n, n ∈ listed ↔ n = "key".toList ∨ n = "a".toList := by
  have hread : (Grammar.openingParameters?
      (Subject.definition variadic [] (methodOf variadic)).source.stripLeft).map (·.map Grammar.Parameter.tagged) =
      some [(.ordinary, "self".toList), (.ordinary, "key".toList), (.ordinary, "_skip".toList),
        (.rest, "rest".toList), (.keywordOnly, "b".toList), (.keywordOnly, "a".toList),
        (.keywordRest, "options".toList)] := by decide +kernel
  obtain ⟨ps,hp,htagged⟩ := Option.map_eq_some_iff.mp hread
  obtain ⟨g,hg,listed,hreport,hlists⟩ := missingParameters_lists rfl hp ["b".toList]
  refine ⟨rfl,by rw [hp]; rfl,listed,hreport,fun n => ?_⟩
  have hasked : g.asked true = ["key".toList, "_skip".toList, "b".toList, "a".toList] := by
    rw [ParameterGroups.asked,← g.ordinary_eq,← g.keywordOnly_eq,← hg,htagged]
    rfl
  rw [hlists.mem_iff,show (methodOf variadic).isBound = true by rfl,hasked]
  constructor
  · rintro ⟨hmem,hmissing⟩
    simp only [List.mem_cons,List.not_mem_nil,or_false] at hmem
    rcases hmem with rfl | rfl | rfl | rfl
    · exact Or.inl rfl
    · cases hmissing
    · cases hmissing
    · exact Or.inr rfl
  · rintro (rfl | rfl) <;> exact ⟨by decide,rfl⟩

def slashed : Module :=
  moduleOf ["class A:\n", "    def m(self, /, a):\n", "        \"\"\"Do it.\n", "\n", "        Args:\n",
    "            b: Text.\n", "\n", "        \"\"\"\n"]

def slashedGroups : ParameterGroups := ⟨["self"], ["a"], none, [], none⟩

theorem positional_receiver_hides_parameter :
    (Grammar.openingParameters? (Subject.definition slashed [] (methodOf slashed)).source.stripLeft).map
        (·.map Grammar.Parameter.tagged) = some slashedGroups.written ∧
      slashedGroups.nameable (methodOf slashed).isBound = ["a".toList] ∧ isMissing ["b"] "a" = true ∧
      missingParameters ["b"] (.definition slashed [] (methodOf slashed)) = .ok [] := by
  have hread : (Grammar.openingParameters?
      (Subject.definition slashed [] (methodOf slashed)).source.stripLeft).map (·.map Grammar.Parameter.tagged) =
      some slashedGroups.written := by decide +kernel
  obtain ⟨ps,hp,htagged⟩ := Option.map_eq_some_iff.mp hread
  refine ⟨hread,rfl,rfl,?_⟩
  simp only [missingParameters,slashedGroups.parameterNamesOf_eq hp htagged]
  rfl

end Check.Sections

end DocLint
