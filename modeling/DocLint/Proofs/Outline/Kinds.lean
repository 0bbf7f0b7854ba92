import DocLint.Proofs.Outline.LineOrder
import DocLint.Proofs.Outline.Turns

/-!
The kind of a definition tells where it stands. What is read directly in a module is a function or a plain
class, and what is read inside another definition is one of the other kinds.
-/

set_option autoImplicit false

namespace DocLint

open Outline

variable {m : Module} {ancestors ps : List Definition} {d p : Definition}

/-- A definition has a kind of its region, and so have those inside it. -/
inductive Placed : Region → Definition → Prop
  | mk {region : Region} {d : Definition} (isClass : Bool) (kind : d.kind = region.nested isClass)
      (children : ∀ c ∈ d.children, Placed (.within d.kind) c) : Placed region d

def Region.inside : List Definition → Region
  | [] => .module
  | d :: _ => .within d.kind

namespace Outline

theorem definitionWith_placed {nested : Region → Reader (List Definition)} {region : Region}
    (h : ∀ r, Ensures (fun _ => True) (nested r) fun ds _ => ∀ d ∈ ds, Placed r d) (isClass : Bool) :
    Ensures (fun _ => True) (definitionWith nested (region.nested isClass)) fun d _ => Placed region d := by
  have hdone {d : Definition} {name : Text} (hd : Placed region d) : Ensures (fun _ => True) (do
      note (.definitionDone (region.nested isClass) name (← current?))
      return d) fun d _ => Placed region d :=
    Ensures.any.bind fun _ => Ensures.any.bind fun _ => Ensures.pure fun _ _ => hd
  iterate 7 refine Ensures.any.bind fun _ => ?_
  dsimp only
  split
  · iterate 3 refine Ensures.any.bind fun _ => ?_
    split
    · exact Ensures.throw_bind
    · iterate 3 refine Ensures.any.bind fun _ => ?_
      refine (h _).bind fun children => ?_
      intro s d s' hchildren hr
      obtain ⟨_,s₁,-,hr⟩ := bind_eq_ok hr
      obtain ⟨_,s₂,-,hr⟩ := bind_eq_ok hr
      obtain ⟨_,s₃,hx,hr⟩ := bind_eq_ok hr
      cases hx
      exact hdone ⟨isClass,rfl,hchildren⟩ _ _ _ trivial hr
  · iterate 4 refine Ensures.any.bind fun _ => ?_
    intro s d s' _ hr
    obtain ⟨_,s₁,hx,hr⟩ := bind_eq_ok hr
    cases hx
    exact hdone ⟨isClass,rfl,by simp⟩ _ _ _ trivial hr

theorem turnAt_placed [Resources] {nested : Region → Reader (List Definition)} {region : Region}
    (h : ∀ r, Ensures (fun _ => True) (nested r) fun ds _ => ∀ d ∈ ds, Placed r d) {exporting fresh : Bool}
    {t : Token} : Ensures (fun _ => True) (turnAt nested region exporting fresh t)
      fun found _ => ∀ d ∈ found.1, Placed region d := by
  have hnone {P : State → Prop} (more : Bool) : Ensures P (pure ([],more))
      fun found _ => ∀ d ∈ found.1, Placed region d := Ensures.pure fun _ _ => by simp
  unfold turnAt
  split
  · exact Ensures.any.bind fun _ => hnone _
  · split
    · exact Ensures.any.bind fun _ => Ensures.any.bind fun _ => hnone _
    · split
      · refine (definitionWith_placed h _).bind fun d => Ensures.pure fun _ hd => ?_
        simpa using hd
      · split
        · exact Ensures.any.bind fun _ => (h _).bind fun ds => Ensures.pure fun _ hds => hds
        · split
          · exact Ensures.any.bind fun _ => hnone _
          · split
            · exact Ensures.any.bind fun _ => hnone _
            · exact Ensures.any.bind fun _ => hnone _

theorem definitionsWithin_placed [Resources] (fuel : Nat) (region : Region) (exporting : Bool) :
    Ensures (fun _ => True) (definitionsWithin fuel region exporting)
      fun ds _ => ∀ d ∈ ds, Placed region d := by
  induction fuel generalizing region exporting with
  | zero => exact Ensures.throw _
  | succ fuel ih =>
    refine Ensures.any.bind fun t => ?_
    cases t with
    | none => exact Ensures.pure fun _ _ => by simp
    | some t =>
      refine Ensures.any.bind fun s => Ensures.any.bind fun _ => ?_
      rw [definitionsAt_eq]
      refine (turnAt_placed fun r => ih r false).bind fun found => ?_
      dsimp only
      split
      · intro s ds s' hfound h
        obtain ⟨more,s₁,hmore,h⟩ := bind_eq_ok h
        cases h
        have hplaced := ih region exporting s more _ trivial hmore
        intro d hd
        rcases List.mem_append.1 hd with hd | hd
        · exact hfound d hd
        · exact hplaced d hd
      · exact Ensures.pure fun _ hfound => hfound

theorem module_placed [Resources] {name : Text} {source : List Text} {s s' : State}
    (h : module name source s = .ok m s') : ∀ d ∈ m.children, Placed .module d := by
  rw [module_run] at h
  cases hparts : moduleParts s with
  | error f s₁ => simp [hparts] at h
  | ok parts s₁ =>
    simp only [hparts] at h
    split at h
    · cases h
      rw [moduleParts_eq] at hparts
      obtain ⟨opened,s₂,-,hparts⟩ := bind_eq_ok hparts
      obtain ⟨found,s₃,hfound,hparts⟩ := bind_eq_ok hparts
      cases hparts
      exact definitionsWithin_placed _ _ _ s₂ found _ trivial hfound
    · cases h

end Outline

theorem Placed.kind_outer (h : Placed (.inside []) d) : d.kind = .function ∨ d.kind = .plainClass := by
  obtain ⟨isClass,hkind,-⟩ := h
  cases isClass with
  | true => exact .inr hkind
  | false => exact .inl hkind

theorem Placed.kind_inner (h : Placed (.inside (p :: ps)) d) :
    d.kind = .nestedClass ∨ d.kind = .method ∧ p.kind.isClass = true ∨
      d.kind = .nestedFunction ∧ p.kind.isClass = false := by
  obtain ⟨isClass,hkind,-⟩ := h
  cases isClass with
  | true => exact .inl hkind
  | false =>
    simp only [Region.inside,Region.nested] at hkind
    cases hp : p.kind.isClass with
    | true => exact .inr (.inl ⟨by simpa [hp] using hkind,rfl⟩)
    | false => exact .inr (.inr ⟨by simpa [hp] using hkind,rfl⟩)

theorem Placed.method_parent (h : Placed (.inside (p :: ps)) d) (hd : d.kind = .method) :
    p.kind.isClass = true := by
  rcases h.kind_inner with hkind | ⟨-,hp⟩ | ⟨hkind,-⟩
  · simp [hkind] at hd
  · exact hp
  · simp [hkind] at hd

theorem Module.placed_of_ofText [Resources] {name source : Text} (h : Module.ofText name source = .ok m) :
    ∀ x ∈ m.children, Placed .module x := by
  obtain ⟨ts,s,s',-,-,hm⟩ := Module.exists_of_ofText h
  exact Outline.module_placed hm

inductive Stands (m : Module) : List Definition → Definition → Prop
  | outer {d : Definition} (child : d ∈ m.children) : Stands m [] d
  | inner {ps : List Definition} {p d : Definition} (parent : Stands m ps p) (child : d ∈ p.children) :
      Stands m (p :: ps) d

mutual

theorem Definition.stands_of_mem : (x : Definition) → (around : List Definition) → Stands m around x →
    .definition m ancestors d ∈ x.subjects m around → Stands m ancestors d
  | ⟨kind, name, start, stop, decorators, docstring, skipped, children⟩, around, hx, hmem => by
    rw [Definition.subjects,List.mem_cons] at hmem
    cases hmem with
    | inl heq =>
      cases heq
      exact hx
    | inr hmem => exact stands_of_mem_children children _ (fun _ hc => hx.inner hc) hmem

theorem stands_of_mem_children : (xs : List Definition) → (around : List Definition) →
    (∀ x ∈ xs, Stands m around x) → .definition m ancestors d ∈ childSubjects m around xs →
    Stands m ancestors d
  | [], _, _, hmem => by simp [childSubjects] at hmem
  | x :: xs, around, hxs, hmem => by
    rw [childSubjects,List.mem_append] at hmem
    cases hmem with
    | inl hmem => exact Definition.stands_of_mem x around (hxs x (List.mem_cons_self ..)) hmem
    | inr hmem =>
      exact stands_of_mem_children xs around (fun y hy => hxs y (List.mem_cons_of_mem x hy)) hmem

end

theorem Module.stands_of_mem (h : .definition m ancestors d ∈ m.subjects) : Stands m ancestors d := by
  rw [Module.subjects,List.mem_cons] at h
  cases h with
  | inl heq => cases heq
  | inr hmem => exact stands_of_mem_children _ [] (fun _ hc => .outer hc) hmem

theorem Module.mem_subjects_of_child (h : d ∈ m.children) : .definition m [] d ∈ m.subjects := by
  obtain ⟨before,after,heq⟩ := List.append_of_mem h
  rw [Module.subjects,heq,childSubjects_append]
  simp [childSubjects,Definition.subjects_eq]

theorem Stands.placed (h : Stands m ancestors d) (hm : ∀ x ∈ m.children, Placed .module x) :
    Placed (.inside ancestors) d := by
  induction h with
  | outer child => exact hm _ child
  | inner parent child ih =>
    obtain ⟨_,_,hchildren⟩ := ih
    exact hchildren _ child

end DocLint
