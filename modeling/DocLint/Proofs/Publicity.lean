import DocLint.Proofs.Outline.Kinds

/-!
When it is known whether a definition is public. The exported names are asked for, and of a method the
name, which becomes a pattern for its decorators.
-/

set_option autoImplicit false

namespace DocLint

variable {m : Module} {ancestors ps : List Definition} {d p : Definition}

namespace Definition

theorem isPublic_outer [Resources] (h : d.kind = .function ∨ d.kind = .plainClass) :
    d.isPublic m ancestors = d.isExported m := by
  rcases h with h | h <;> rw [isPublic.eq_def,h]

theorem isPublic_nestedFunction [Resources] (h : d.kind = .nestedFunction) : d.isPublic m ancestors = .ok false := by
  rw [isPublic.eq_def,h]

theorem isPublic_nestedClass [Resources] (h : d.kind = .nestedClass) :
    d.isPublic m (p :: ps) =
      if d.name.isUnderscored then .ok false
      else if p.kind.isClass then p.isPublic m ps else .ok false := by
  rw [isPublic.eq_def,h]

theorem isPublic_method [Resources] (h : d.kind = .method) :
    d.isPublic m (p :: ps) = d.isAccessor.bind fun accessor =>
      if accessor then .ok false else (p.isPublic m ps).map (· && d.hasPublicName) := by
  rw [isPublic.eq_def,h]
  cases d.isAccessor with
  | error e => rfl
  | ok accessor => cases accessor <;> rfl

end Definition

def Module.CanBeAsked (m : Module) : Prop := ∀ b, m.exports ≠ some (.single (.bytes b))

/-- Whether a subject's name can be asked: that of a method with decorators has to be a pattern. -/
def Subject.canBeAsked [Resources] : Subject → Bool
  | .module _ => true
  | .definition _ _ d =>
    d.kind != .method || d.decorators.isEmpty || (Resources.matcher? (Definition.accessorPattern d.name)).isSome

namespace Definition

theorem isExported_ok (h : m.CanBeAsked) (d : Definition) : ∃ b, d.isExported m = .ok b := by
  unfold isExported
  cases he : m.exports with
  | none => exact ⟨_,rfl⟩
  | some e =>
    cases e with
    | items names => exact ⟨_,rfl⟩
    | single value =>
      cases value with
      | text t => exact ⟨_,rfl⟩
      | bytes b => exact absurd he (h b)

theorem isAccessor_ok [Resources] (hd : d.kind = .method)
    (h : (Subject.definition m ancestors d).canBeAsked = true) : ∃ b, d.isAccessor = .ok b := by
  simp only [Subject.canBeAsked,hd,bne_self_eq_false,Bool.false_or,Bool.or_eq_true] at h
  unfold isAccessor isAccessorBy
  rcases h with hnone | hsome
  · exact ⟨false,by simp [List.isEmpty_iff.mp hnone]⟩
  · obtain ⟨p,hp⟩ := Option.isSome_iff_exists.mp hsome
    rw [hp]
    split <;> exact ⟨_,rfl⟩

end Definition

namespace Stands

variable (hm : ∀ x ∈ m.children, Placed .module x) (hasked : m.CanBeAsked)
include hm hasked

theorem isPublic_class_ok [Resources] (hs : Stands m ancestors d) (hd : d.kind.isClass = true) :
    ∃ b, d.isPublic m ancestors = .ok b := by
  induction hs with
  | @outer d child =>
    rw [Definition.isPublic_outer (hm d child).kind_outer]
    exact Definition.isExported_ok hasked d
  | @inner ps p d parent child ih =>
    rcases ((Stands.inner parent child).placed hm).kind_inner with hkind | ⟨hkind,-⟩ | ⟨hkind,-⟩
    · rw [Definition.isPublic_nestedClass hkind]
      split
      · exact ⟨_,rfl⟩
      · split
        · rename_i hp
          exact ih hp
        · exact ⟨_,rfl⟩
    · simp [hkind,DefinitionKind.isClass] at hd
    · simp [hkind,DefinitionKind.isClass] at hd

/-- In a module whose exported names can be asked, only the name of a method keeps it from being known
whether a definition is public. -/
theorem isPublic_ok [Resources] (hs : Stands m ancestors d)
    (hd : (Subject.definition m ancestors d).canBeAsked = true) : ∃ b, d.isPublic m ancestors = .ok b := by
  cases hs with
  | outer child =>
    rw [Definition.isPublic_outer (hm d child).kind_outer]
    exact Definition.isExported_ok hasked d
  | @inner ps p _ parent child =>
    rcases ((Stands.inner parent child).placed hm).kind_inner with hkind | ⟨hkind,hp⟩ | ⟨hkind,-⟩
    · exact (Stands.inner parent child).isPublic_class_ok hm hasked (by simp [hkind,DefinitionKind.isClass])
    · obtain ⟨b,hb⟩ := Definition.isAccessor_ok hkind hd
      obtain ⟨c,hc⟩ := parent.isPublic_class_ok hm hasked hp
      rw [Definition.isPublic_method hkind,hb,hc]
      cases b <;> exact ⟨_,rfl⟩
    · exact ⟨_,Definition.isPublic_nestedFunction hkind⟩

end Stands

theorem Subject.isPublic_of_not_canBeAsked [Resources] {s : Subject} (searchPath : List Path)
    (h : s.canBeAsked = false) : s.isPublic searchPath = .error .name := by
  cases s with
  | module m => cases h
  | definition m ancestors d =>
    simp only [canBeAsked,Bool.or_eq_false_iff,bne_eq_false_iff_eq,Option.isSome_eq_false_iff,
      Option.isNone_iff_eq_none] at h
    obtain ⟨⟨hd,hdecorated⟩,hnone⟩ := h
    have hname : d.isAccessor = .error .name := by
      simp [Definition.isAccessor,Definition.isAccessorBy,hnone,hdecorated]
    rw [isPublic,Definition.isPublic.eq_def,hd]
    simp only [hname]

end DocLint
