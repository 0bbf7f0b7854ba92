import DocLint.Proofs.Check.Privacy
import DocLint.Proofs.Pattern.PlainText
import DocLint.Resources.Builtin

/-!
What makes a definition public, said without recursion. The kinds along the definitions around it leave
two possibilities: it stands directly in the module, or in classes only, the outermost of which does.
-/

set_option autoImplicit false

namespace DocLint

variable {m : Module} {ancestors ps : List Definition} {d p : Definition}

namespace Definition

/-- The exported names decide on what stands directly in a module, if there are any. -/
def IsExported (m : Module) (d : Definition) : Prop :=
  (∀ e, m.exports = some e → e.contains? d.name = some true) ∧
    (m.exports = none → ¬"_".toList <+: d.name)

theorem isExported_iff : d.isExported m = .ok true ↔ d.IsExported m := by
  unfold isExported IsExported
  cases m.exports with
  | some e => cases he : e.contains? d.name <;> simp [he]
  | none =>
    simp only [reduceCtorEq,false_implies,implies_true,true_and,forall_const,Except.ok.injEq]
    rw [Bool.not_eq_true',← Bool.not_eq_true,Text.isUnderscored,List.isPrefixOf_iff_prefix]

theorem isUnderscored_eq_false_iff : d.name.isUnderscored = false ↔ ¬"_".toList <+: d.name := by
  rw [← Bool.not_eq_true,Text.isUnderscored,List.isPrefixOf_iff_prefix]

theorem isAccessor_ok_false_iff [Resources] : d.isAccessor = .ok false ↔
    d.decorators = [] ∨ ∃ p, Resources.matcher? (accessorPattern d.name) = some p ∧
      ∀ x ∈ d.decorators, p.opens x.name = false := by
  unfold isAccessor isAccessorBy
  cases hd : d.decorators with
  | nil => simp
  | cons x xs => cases Resources.matcher? (accessorPattern d.name) <;> simp

theorem plainName_asked [Resources] {named? : Text → Option Char} (hpatterns : Resources.MatchesPatterns named?)
    (hplain : ∀ c ∈ d.name, Pattern.isPlain c = true) :
    (Subject.definition m ancestors d).canBeAsked = true ∧
      ((d.decorators = [] ∨ ∃ p, Resources.matcher? (accessorPattern d.name) = some p ∧
          ∀ x ∈ d.decorators, p.opens x.name = false) ↔
        ∀ x ∈ d.decorators, ¬d.name ++ ".".toList <+: x.name) := by
  obtain ⟨p,hp,hopens⟩ := Pattern.opens_accessorPattern hpatterns hplain
  refine ⟨by simp [Subject.canBeAsked,hp],?_⟩
  simp only [hp,Option.some.injEq,← Bool.not_eq_true]
  constructor
  · rintro (hnone | ⟨_,rfl,hnot⟩) x hx
    · simp [hnone] at hx
    · exact fun h => hnot x hx ((hopens x.name).mpr h)
  · exact fun hnot => .inr ⟨p,rfl,fun x hx h => hnot x hx ((hopens x.name).mp h)⟩

theorem hasPublicName_iff :
    d.hasPublicName = true ↔ ¬"_".toList <+: d.name ∨ "__".toList <+: d.name ∧ "__".toList <:+ d.name := by
  have hdunder : d.name.isDunder = true ↔ "__".toList <+: d.name ∧ "__".toList <:+ d.name := by
    rw [Text.isDunder,Bool.and_eq_true,List.isPrefixOf_iff_prefix,List.isSuffixOf_iff_suffix]
  have hvariadic : variadicMethods.contains d.name = true → d.name.isDunder = true := by
    intro h
    have hall : ∀ n ∈ variadicMethods, n.isDunder = true := List.all_eq_true.mp rfl
    exact hall d.name (List.contains_iff_mem.mp h)
  rw [← isUnderscored_eq_false_iff,← hdunder,hasPublicName,isMagic]
  cases d.name.isUnderscored <;> cases hd : d.name.isDunder <;>
    cases hv : variadicMethods.contains d.name <;> simp_all

end Definition

structure Sheltered (m : Module) (classes : List Definition) : Prop where
  areClasses : ∀ p ∈ classes, p.kind.isClass = true
  outermost : ∃ p, classes.getLast? = some p ∧ p.IsExported m
  named : ∀ p ∈ classes, p.kind = .nestedClass → ¬"_".toList <+: p.name

theorem sheltered_cons_iff {q : Definition} {qs : List Definition} (hp : p.kind = .nestedClass) :
    Sheltered m (p :: q :: qs) ↔ ¬"_".toList <+: p.name ∧ Sheltered m (q :: qs) := by
  constructor
  · intro h
    refine ⟨h.named p List.mem_cons_self hp,?_,?_,?_⟩
    · exact fun x hx => h.areClasses x (List.mem_cons_of_mem p hx)
    · simpa [List.getLast?_cons_cons] using h.outermost
    · exact fun x hx => h.named x (List.mem_cons_of_mem p hx)
  · rintro ⟨hname,h⟩
    refine ⟨?_,?_,?_⟩
    · exact List.forall_mem_cons.mpr ⟨by simp [hp,DefinitionKind.isClass],h.areClasses⟩
    · simpa [List.getLast?_cons_cons] using h.outermost
    · exact List.forall_mem_cons.mpr ⟨fun _ => hname,h.named⟩

namespace Stands

variable (hm : ∀ x ∈ m.children, Placed .module x)
include hm

/-- The induction goes outwards along the classes; a function among them makes both sides false. -/
theorem isPublic_class_iff [Resources] (h : Stands m ancestors d) (hd : d.kind.isClass = true) :
    d.isPublic m ancestors = .ok true ↔ Sheltered m (d :: ancestors) := by
  induction h with
  | @outer d child =>
    have hplain : d.kind = .plainClass := by
      rcases (hm d child).kind_outer with hkind | hkind
      · simp [hkind,DefinitionKind.isClass] at hd
      · exact hkind
    rw [Definition.isPublic_outer (.inr hplain)]
    refine Definition.isExported_iff.trans ⟨fun he => ⟨by simp [hd],⟨d,rfl,he⟩,by simp [hplain]⟩,fun hs => ?_⟩
    obtain ⟨_,heq,he⟩ := hs.outermost
    cases heq
    exact he
  | @inner ps p d parent child ih =>
    have hnested : d.kind = .nestedClass := by
      rcases ((Stands.inner parent child).placed hm).kind_inner with hkind | ⟨hkind,-⟩ | ⟨hkind,-⟩
      · exact hkind
      · simp [hkind,DefinitionKind.isClass] at hd
      · simp [hkind,DefinitionKind.isClass] at hd
    rw [sheltered_cons_iff hnested,Definition.isPublic_nestedClass hnested,← Definition.isUnderscored_eq_false_iff]
    cases hp : p.kind.isClass with
    | true =>
      rw [← ih hp]
      cases d.name.isUnderscored <;> simp
    | false =>
      have hnot : ¬Sheltered m (p :: ps) := fun hs => by
        simp [hs.areClasses p List.mem_cons_self] at hp
      cases d.name.isUnderscored <;> simp [hnot]

theorem isPublic_method_iff [Resources] (h : Stands m ancestors d) (hd : d.kind = .method) :
    d.isPublic m ancestors = .ok true ↔
      Sheltered m ancestors ∧ d.isAccessor = .ok false ∧ d.hasPublicName = true := by
  cases h with
  | outer child => rcases (hm d child).kind_outer with hkind | hkind <;> rw [hkind] at hd <;> cases hd
  | @inner ps p _ parent child =>
    have hp : p.kind.isClass = true := ((Stands.inner parent child).placed hm).method_parent hd
    rw [← parent.isPublic_class_iff hm hp,Definition.isPublic_method hd]
    cases d.isAccessor with
    | error e => simp [Except.bind]
    | ok accessor =>
      cases p.isPublic m ps with
      | error e => cases accessor <;> simp [Except.bind,Except.map]
      | ok b => cases accessor <;> simp [Except.bind,Except.map]

/-- A function around a definition hides it, also where the exported names cannot be asked. -/
theorem isPublic_in_function [Resources] (h : Stands m ancestors d) (hf : ∃ p ∈ ancestors, p.kind.isClass = false) :
    d.isPublic m ancestors =
      if (Subject.definition m ancestors d).canBeAsked then .ok false else .error .name := by
  induction h with
  | outer child => simp at hf
  | @inner ps p d parent child ih =>
    have hasked (hkind : d.kind ≠ .method) : (Subject.definition m (p :: ps) d).canBeAsked = true := by
      simp [Subject.canBeAsked,hkind]
    -- a class around `d` hides it only if a function is further out, and a class can always be asked
    have hclass (hp : p.kind.isClass = true) : p.isPublic m ps = .ok false := by
      have hout : ∃ x ∈ ps, x.kind.isClass = false := by
        obtain ⟨x,hx,hkind⟩ := hf
        rcases List.mem_cons.mp hx with rfl | hx
        · simp [hkind] at hp
        · exact ⟨x,hx,hkind⟩
      have hkind : p.kind ≠ .method := by
        rintro hkind
        simp [hkind,DefinitionKind.isClass] at hp
      rw [ih hout,if_pos (by simp [Subject.canBeAsked,hkind])]
    rcases ((Stands.inner parent child).placed hm).kind_inner with hkind | ⟨hkind,hp⟩ | ⟨hkind,-⟩
    · rw [if_pos (hasked (by simp [hkind])),Definition.isPublic_nestedClass hkind]
      split
      · rfl
      · split
        · rename_i hp
          exact hclass hp
        · rfl
    · split
      · rename_i hd
        obtain ⟨b,hb⟩ := Definition.isAccessor_ok hkind hd
        rw [Definition.isPublic_method hkind,hb,hclass hp]
        cases b <;> rfl
      · rename_i hd
        exact Subject.isPublic_of_not_canBeAsked [] (Bool.not_eq_true _ ▸ hd)
    · rw [if_pos (hasked (by simp [hkind])),Definition.isPublic_nestedFunction hkind]

end Stands

/-- When a definition of a module is public: directly in the module, if it is exported; as a nested
function, never; as a method or a nested class, if only classes are around it, the outermost of them is
exported, none of those nested in others has an underscored name, and a method has a public name and the
pattern made of it opens the name of no decorator. If the name is no pattern, this is not known. If all of its
characters stand for themselves, no decorator opens with the name and a dot. -/
theorem isPublic_closed_form [Resources] {file source : Text} {m : Module} (h : Module.ofText file source = .ok m)
    (ancestors : List Definition) (d : Definition) (hd : .definition m ancestors d ∈ m.subjects) :
    (d.kind = .function ∨ d.kind = .plainClass → (d.isPublic m ancestors = .ok true ↔ d.IsExported m)) ∧
    (d.kind = .nestedFunction → d.isPublic m ancestors = .ok false) ∧
    (d.kind = .method ∨ d.kind = .nestedClass →
      (d.isPublic m ancestors = .ok true ↔
        (∀ p ∈ ancestors, p.kind = .plainClass ∨ p.kind = .nestedClass) ∧
        (∃ p, ancestors.getLast? = some p ∧ p.IsExported m) ∧
        (∀ p ∈ d :: ancestors, p.kind = .nestedClass → ¬"_".toList <+: p.name) ∧
        (d.kind = .method →
          (d.decorators = [] ∨ ∃ p, Resources.matcher? (Definition.accessorPattern d.name) = some p ∧
            ∀ x ∈ d.decorators, p.opens x.name = false) ∧
          (¬"_".toList <+: d.name ∨ "__".toList <+: d.name ∧ "__".toList <:+ d.name)))) ∧
    ((∃ p ∈ ancestors, p.kind ≠ .plainClass ∧ p.kind ≠ .nestedClass) →
      d.isPublic m ancestors =
        if (Subject.definition m ancestors d).canBeAsked then .ok false else .error .name) ∧
    ((∀ b, m.exports ≠ some (.single (.bytes b))) →
      if (Subject.definition m ancestors d).canBeAsked then ∃ b, d.isPublic m ancestors = .ok b
      else d.isPublic m ancestors = .error .name) ∧
    ((∃ named?, Resources.MatchesPatterns named?) → (∀ c ∈ d.name, Pattern.isPlain c = true) →
      (Subject.definition m ancestors d).canBeAsked = true ∧
      ((d.decorators = [] ∨ ∃ p, Resources.matcher? (Definition.accessorPattern d.name) = some p ∧
          ∀ x ∈ d.decorators, p.opens x.name = false) ↔
        ∀ x ∈ d.decorators, ¬d.name ++ ".".toList <+: x.name)) := by
  have hplaced := Module.placed_of_ofText h
  have hstands := Module.stands_of_mem hd
  have hclass (p : Definition) : p.kind.isClass = true ↔ p.kind = .plainClass ∨ p.kind = .nestedClass := by
    cases p.kind <;> simp [DefinitionKind.isClass]
  refine ⟨?_,Definition.isPublic_nestedFunction,?_,?_,fun hexports => ?_,fun hpatterns hplain => ?_⟩
  · intro hkind
    rw [Definition.isPublic_outer hkind]
    exact Definition.isExported_iff
  · simp only [← hclass]
    rintro (hkind | hkind)
    · rw [hstands.isPublic_method_iff hplaced hkind,Definition.isAccessor_ok_false_iff,
        Definition.hasPublicName_iff]
      constructor
      · rintro ⟨hs,hname⟩
        exact ⟨hs.areClasses,hs.outermost,List.forall_mem_cons.mpr ⟨by simp [hkind],hs.named⟩,fun _ => hname⟩
      · rintro ⟨hclasses,houtermost,hnamed,hname⟩
        exact ⟨⟨hclasses,houtermost,(List.forall_mem_cons.mp hnamed).2⟩,hname hkind⟩
    · obtain ⟨p,ps,rfl⟩ : ∃ p ps, ancestors = p :: ps := by
        cases hstands with
        | outer child =>
          rcases (hplaced d child).kind_outer with hk | hk <;> rw [hk] at hkind <;> cases hkind
        | @inner ps p => exact ⟨p,ps,rfl⟩
      rw [hstands.isPublic_class_iff hplaced (by simp [hkind,DefinitionKind.isClass])]
      constructor
      · intro hs
        exact ⟨(List.forall_mem_cons.mp hs.areClasses).2,hs.outermost,hs.named,by simp [hkind]⟩
      · rintro ⟨hclasses,houtermost,hnamed,-⟩
        exact ⟨List.forall_mem_cons.mpr ⟨by simp [hkind,DefinitionKind.isClass],hclasses⟩,houtermost,hnamed⟩
  · rintro ⟨p,hp,hnot⟩
    refine hstands.isPublic_in_function hplaced ⟨p,hp,?_⟩
    rw [← Bool.not_eq_true,hclass,not_or]
    exact hnot
  · split
    · rename_i hasked
      exact hstands.isPublic_ok hplaced hexports hasked
    · rename_i hasked
      exact Subject.isPublic_of_not_canBeAsked [] (Bool.not_eq_true _ ▸ hasked)
  · obtain ⟨_,hpatterns⟩ := hpatterns
    exact Definition.plainName_asked hpatterns hplain

def innerSpecial : Text := "__all__ = ['A']\nclass A:\n  class B:\n    def __f__(self): pass\n"

open Resources.Builtin

theorem isPublic_closed_form_innerSpecial : ∃ m ancestors d, Module.ofText "a.py" innerSpecial = .ok m ∧
    .definition m ancestors d ∈ m.subjects ∧ d.kind = .method ∧ d.isPublic m ancestors = .ok true ∧
    (∀ p ∈ ancestors, p.kind = .plainClass ∨ p.kind = .nestedClass) ∧
    ∃ p, ancestors.getLast? = some p ∧ p.IsExported m := by
  have hrun : ((Module.ofText "a.py" innerSpecial).toOption.any fun m => m.subjects.any fun s =>
      s.isPublicAt 2 && s.definition?.any (·.kind == .method)) = true := by
    decide +kernel
  obtain ⟨m,hm,hrun⟩ := exists_of_any hrun
  simp only [List.any_eq_true,Bool.and_eq_true] at hrun
  obtain ⟨s,hs,hpublic,hkind⟩ := hrun
  cases s with
  | module m' => cases hpublic
  | definition m' ancestors d =>
    obtain rfl : m' = m := Module.root_of_mem hs
    simp only [Subject.isPublicAt,Bool.and_eq_true,beq_iff_eq,Subject.definition?,Option.any_some] at hpublic hkind
    have hd := toOption_eq_some hpublic.2
    obtain ⟨-,-,hmethod,-⟩ := isPublic_closed_form hm ancestors d hs
    obtain ⟨hclasses,houtermost,-⟩ := (hmethod (.inl hkind)).mp hd
    exact ⟨m',ancestors,d,hm,hs,hkind,hd,hclasses,houtermost⟩

/-- A method whose name is a dot, as the tokens say that follow a comment with a carriage return. -/
def dottedMethod : Text := "#\rr'''\nclass A:\n    @x.y\n    def .(): pass\n#'''"

def isDotInClass : Subject → Bool
  | .module _ => false
  | .definition m ancestors d => d.name == ['.'] && d.decorators.map (·.name) == ["x.y".toList] && d.kind == .method &&
      ancestors.map (fun p => (p.kind, p.name)) == [(.plainClass, ['A'])] && m.exports.isNone

/-- A dot stands for any character in the pattern that is made of the name. -/
theorem dottedMethod_private : ∃ m ancestors d, Module.ofText "module.py" dottedMethod = .ok m ∧
    .definition m ancestors d ∈ m.subjects ∧ d.kind = .method ∧ (∀ p ∈ ancestors, p.kind = .plainClass) ∧
    (∃ p, ancestors.getLast? = some p ∧ p.IsExported m) ∧ (∀ x ∈ d.decorators, ¬d.name ++ ".".toList <+: x.name) ∧
    ¬"_".toList <+: d.name ∧ d.isPublic m ancestors = .ok false := by
  have hrun : ((Module.ofText "module.py" dottedMethod).toOption.any fun m => m.subjects.any fun s =>
      isDotInClass s && (s.isPublic []).toOption == some false) = true := by
    decide +kernel
  obtain ⟨m,hm,hrun⟩ := exists_of_any hrun
  simp only [List.any_eq_true,Bool.and_eq_true,beq_iff_eq] at hrun
  obtain ⟨s,hs,hdot,hprivate⟩ := hrun
  cases s with
  | module m' => cases hdot
  | definition m' ancestors d =>
    obtain rfl : m' = m := Module.root_of_mem hs
    simp only [isDotInClass,Bool.and_eq_true,beq_iff_eq,Option.isNone_iff_eq_none] at hdot
    obtain ⟨⟨⟨⟨hname,hdecorators⟩,hkind⟩,hancestors⟩,hexports⟩ := hdot
    obtain ⟨p,rfl,hp⟩ := List.map_eq_singleton_iff.mp hancestors
    obtain ⟨x,hx,hxname⟩ := List.map_eq_singleton_iff.mp hdecorators
    obtain ⟨hclass,houter⟩ := Prod.mk.inj hp
    refine ⟨m',[p],d,hm,hs,hkind,List.forall_mem_singleton.mpr hclass,⟨p,rfl,?_,?_⟩,?_,?_,toOption_eq_some hprivate⟩
    · simp [hexports]
    · intro _
      rw [houter]
      decide
    · rw [hx,hname,List.forall_mem_singleton,hxname]
      decide
    · rw [hname]
      decide

end DocLint
