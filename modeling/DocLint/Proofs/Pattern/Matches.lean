import DocLint.Pattern.Read
import DocLint.Proofs.Lists

/-!
Where the matches of a pattern end, in the order in which they are tried. A search asks about one after the
other and takes the first answer, so it finds something if it can be found at all.
-/

set_option autoImplicit false

namespace DocLint

def Resources.MatchesPatterns [Resources] (named? : Text → Option Char) : Prop :=
  ∀ t, Resources.matcher? t = (Pattern.Source.ofText? named? t).map Pattern.Source.matcher

namespace Pattern

variable {f : Search} {g : Spot → List Spot} {k : Spot → Option Spot} {x y : Spot}

/-! ### Ends of matches -/

def exactlyEnds (g : Spot → List Spot) : Nat → Spot → List Spot
  | 0, x => [x]
  | n + 1, x => (g x).flatMap (exactlyEnds g n)

def upToEnds (g : Spot → List Spot) (lazy : Bool) : Nat → Option Nat → Spot → List Spot
  | 0, _, x => [x]
  | n + 1, last, x =>
    if last = some x.position then [x]
    else
      let further := (g x).flatMap (upToEnds g lazy n (some x.position))
      if lazy then x :: further else further ++ [x]

def timesEnds (g : Spot → List Spot) (least : Nat) (most : Option Nat) (lazy : Bool) (x : Spot) : List Spot :=
  (exactlyEnds g least x).flatMap fun y => upToEnds g lazy (most.elim (y.rest.length + 1) (· - least)) none y

def onceEnds (g : Spot → List Spot) (x : Spot) : List Spot := (g x).take 1

def charEnds (p : Char → Bool) (x : Spot) : List Spot :=
  match x.next? with
  | some (c, y) => if p c then [y] else []
  | none => []

def ends : Pattern → Spot → List Spot
  | .empty, x => [x]
  | .any lines, x => charEnds (fun c => lines || c ≠ '\n') x
  | .oneOf s, x => charEnds s.contains x
  | .anchor a, x => if a.holds x then [x] else []
  | .seq p q, x => (ends p x).flatMap (ends q)
  | .either p q, x => ends p x ++ ends q x
  | .group i p, x => (ends p (x.openGroup i)).map (·.closeGroup i)
  | .times p least most manner, x =>
    match manner with
    | .greedy => timesEnds (ends p) least most false x
    | .lazy => timesEnds (ends p) least most true x
    | .possessive => onceEnds (timesEnds (onceEnds (ends p)) least most false) x
  | .atomic p, x => onceEnds (ends p) x
  | .look behind negated p, x =>
    match (x.back? (behind.getD 0)).bind fun y => (ends p y).head? with
    | some y => if negated then [] else [{ x with opened := y.opened, closed := y.closed }]
    | none => if negated then [x] else []
  | .again i letters, x => ((x.captured? i).bind fun t => x.behind? letters t).toList
  | .given i p q, x => if (x.captured? i).isSome then ends p x else ends q x

/-! ### Searches -/

def Asks (f : Search) (g : Spot → List Spot) : Prop := ∀ x k, f x k = (g x).findSome? k

namespace Asks

theorem once (h : Asks f g) : Asks (Search.once f) (onceEnds g) := by
  intro x k
  rw [Search.once,h x some,findSome?_some,onceEnds]
  cases g x with
  | nil => rfl
  | cons y ys => cases hk : k y <;> simp [hk]

theorem exactly (h : Asks f g) (n : Nat) : Asks (Search.exactly f n) (exactlyEnds g n) := by
  induction n with
  | zero =>
    intro x k
    cases hk : k x <;> simp [Search.exactly,exactlyEnds,hk]
  | succ n ih =>
    intro x k
    simp only [Search.exactly,exactlyEnds,h x,ih _ k]
    exact (findSome?_flatMap _ _ _).symm

theorem upTo (h : Asks f g) (lazy : Bool) (n : Nat) (last : Option Nat) :
    Asks (Search.upTo f lazy n last) (upToEnds g lazy n last) := by
  induction n generalizing last with
  | zero =>
    intro x k
    cases hk : k x <;> simp [Search.upTo,upToEnds,hk]
  | succ n ih =>
    intro x k
    simp only [Search.upTo,upToEnds,h x,ih _ _ k,← findSome?_flatMap]
    split
    · cases hk : k x <;> simp [hk]
    · split
      · cases hk : k x <;> simp [hk,Option.orElse]
      · rw [List.findSome?_append]
        cases hk : k x <;>
          cases ((g x).flatMap (upToEnds g lazy n (some x.position))).findSome? k <;> simp [hk,Option.orElse]

theorem times (h : Asks f g) (least : Nat) (most : Option Nat) (lazy : Bool) :
    Asks (Search.times f least most lazy) (timesEnds g least most lazy) := by
  intro x k
  rw [Search.times,h.exactly least,timesEnds,findSome?_flatMap]
  refine congrArg (fun k => (exactlyEnds g least x).findSome? k) (funext fun y => ?_)
  exact h.upTo lazy _ none y k

theorem char (p : Char → Bool) :
    Asks (fun x k => x.next?.bind fun (c, y) => if p c then k y else none) (charEnds p) := by
  intro x k
  simp only [charEnds]
  cases x.next? with
  | none => rfl
  | some cy =>
    obtain ⟨c,y⟩ := cy
    cases hc : p c with
    | false => simp [hc]
    | true => cases hk : k y <;> simp [hc,hk]

end Asks

theorem find_asks (p : Pattern) : Asks p.find p.ends := by
  induction p with
  | empty =>
    intro x k
    cases hk : k x <;> simp [find,ends,hk]
  | any lines => exact Asks.char fun c => lines || c ≠ '\n'
  | oneOf s => exact Asks.char s.contains
  | anchor a =>
    intro x k
    simp only [find,ends]
    split
    · cases hk : k x <;> simp [hk]
    · rfl
  | seq p q ihp ihq =>
    intro x k
    simp only [find,ends,ihp x,ihq _ k]
    exact (findSome?_flatMap _ _ _).symm
  | either p q ihp ihq =>
    intro x k
    simp only [find,ends,List.findSome?_append,ihp x k,ihq x k]
    cases (ends p x).findSome? k <;> rfl
  | group i p ih =>
    intro x k
    simp only [find,ends,ih (x.openGroup i),List.findSome?_map]
    rfl
  | times p least most manner ih =>
    cases manner with
    | greedy => exact ih.times least most false
    | lazy => exact ih.times least most true
    | possessive => exact (ih.once.times least most false).once
  | atomic p ih => exact ih.once
  | look behind negated p ih =>
    intro x k
    have hfirst : ((x.back? (behind.getD 0)).bind fun y => find p y some) =
        (x.back? (behind.getD 0)).bind fun y => (ends p y).head? := by
      simp only [ih _ some,findSome?_some]
    simp only [find,ends,hfirst]
    cases (x.back? (behind.getD 0)).bind fun y => (ends p y).head? with
    | none =>
      cases negated with
      | false => rfl
      | true => cases hk : k x <;> simp [hk]
    | some y =>
      cases negated with
      | false => cases hk : k { x with opened := y.opened, closed := y.closed } <;> simp [hk]
      | true => rfl
  | again i letters =>
    intro x k
    simp only [find,ends]
    cases ((x.captured? i).bind fun t => x.behind? letters t) with
    | none => rfl
    | some y => cases hk : k y <;> simp [hk]
  | given i p q ihp ihq =>
    intro x k
    simp only [find,ends]
    split
    · exact ihp x k
    · exact ihq x k

theorem matchesOpening_iff (p : Pattern) (t : Text) :
    p.matchesOpening t = true ↔ ∃ y, y ∈ p.ends { rest := t } := by
  rw [matchesOpening,find_asks p _ some,findSome?_some,List.isSome_head?]
  exact ⟨List.exists_mem_of_ne_nil _,fun ⟨y,hy⟩ => List.ne_nil_of_mem hy⟩

/-! ### Sequences and alternatives -/

theorem ends_inOrder_concat (ps : List Pattern) (q : Pattern) (x : Spot) :
    (inOrder (ps ++ [q])).ends x = ((inOrder ps).ends x).flatMap q.ends := by
  induction ps generalizing x with
  | nil => simp [inOrder,ends]
  | cons p ps ih =>
    have hstep : (inOrder (ps ++ [q])).ends = fun y => ((inOrder ps).ends y).flatMap q.ends := funext ih
    change (p.ends x).flatMap (inOrder (ps ++ [q])).ends = ((p.ends x).flatMap (inOrder ps).ends).flatMap q.ends
    rw [List.flatMap_assoc,hstep]

theorem ends_anyOf {ps : List Pattern} (hne : ps ≠ []) (x : Spot) :
    (anyOf ps).ends x = ps.flatMap fun p => p.ends x := by
  induction ps with
  | nil => exact absurd rfl hne
  | cons p ps ih =>
    cases ps with
    | nil => simp [anyOf]
    | cons q qs =>
      change p.ends x ++ (anyOf (q :: qs)).ends x = _
      rw [ih (by simp)]
      rfl

/-! ### Matches go onward -/

def Onward (x y : Spot) : Prop := ∃ taken, x.rest = taken ++ y.rest

namespace Onward

theorem refl (x : Spot) : Onward x x := ⟨[],rfl⟩

theorem trans {z : Spot} (h : Onward x y) (h' : Onward y z) : Onward x z := by
  obtain ⟨a,ha⟩ := h
  obtain ⟨b,hb⟩ := h'
  exact ⟨a ++ b,by rw [ha,hb,List.append_assoc]⟩

theorem next {c : Char} (h : x.next? = some (c, y)) : Onward x y := by
  unfold Spot.next? at h
  split at h
  · cases h
  · rename_i heq
    cases h
    exact ⟨[_],heq⟩

theorem behind {letters : Letters} {t : Text} {x y : Spot} (h : x.behind? letters t = some y) : Onward x y := by
  induction t generalizing x with
  | nil =>
    cases h
    exact refl _
  | cons c t ih =>
    unfold Spot.behind? at h
    split at h
    · rename_i hnext
      split at h
      · exact (next hnext).trans (ih h)
      · cases h
    · cases h

variable {g : Spot → List Spot} (hg : ∀ x, ∀ y ∈ g x, Onward x y)
include hg

theorem once : ∀ x, ∀ y ∈ onceEnds g x, Onward x y := fun x y hy => hg x y (List.mem_of_mem_take hy)

theorem exactly (n : Nat) : ∀ x, ∀ y ∈ exactlyEnds g n x, Onward x y := by
  induction n with
  | zero =>
    intro x y hy
    rw [List.mem_singleton.mp hy]
    exact refl x
  | succ n ih =>
    intro x y hy
    obtain ⟨z,hz,hy⟩ := List.mem_flatMap.mp hy
    exact (hg x z hz).trans (ih z y hy)

theorem upTo (lazy : Bool) (n : Nat) (last : Option Nat) :
    ∀ x, ∀ y ∈ upToEnds g lazy n last x, Onward x y := by
  induction n generalizing last with
  | zero =>
    intro x y hy
    rw [List.mem_singleton.mp hy]
    exact refl x
  | succ n ih =>
    intro x y hy
    have hfurther (hy : y ∈ (g x).flatMap (upToEnds g lazy n (some x.position))) : Onward x y := by
      obtain ⟨z,hz,hy⟩ := List.mem_flatMap.mp hy
      exact (hg x z hz).trans (ih _ z y hy)
    have hsame (hy : y = x) : Onward x y := hy ▸ refl x
    simp only [upToEnds] at hy
    split at hy
    · exact hsame (List.mem_singleton.mp hy)
    · split at hy
      · exact (List.mem_cons.mp hy).elim hsame hfurther
      · exact (List.mem_append.mp hy).elim hfurther fun hy => hsame (List.mem_singleton.mp hy)

theorem times (least : Nat) (most : Option Nat) (lazy : Bool) :
    ∀ x, ∀ y ∈ timesEnds g least most lazy x, Onward x y := by
  intro x y hy
  obtain ⟨z,hz,hy⟩ := List.mem_flatMap.mp hy
  exact (exactly hg least x z hz).trans (upTo hg lazy _ none z y hy)

end Onward

theorem onward_charEnds {p : Char → Bool} (h : y ∈ charEnds p x) : Onward x y := by
  unfold charEnds at h
  split at h
  · rename_i hnext
    split at h
    · rw [List.mem_singleton.mp h]
      exact Onward.next hnext
    · cases h
  · cases h

theorem onward_of_mem (p : Pattern) : ∀ x, ∀ y ∈ p.ends x, Onward x y := by
  induction p with
  | empty => exact fun x y hy => List.mem_singleton.mp hy ▸ Onward.refl x
  | any lines => exact fun x y hy => onward_charEnds hy
  | oneOf s => exact fun x y hy => onward_charEnds hy
  | anchor a =>
    intro x y hy
    simp only [ends] at hy
    split at hy
    · exact List.mem_singleton.mp hy ▸ Onward.refl x
    · cases hy
  | seq p q ihp ihq =>
    intro x y hy
    obtain ⟨z,hz,hy⟩ := List.mem_flatMap.mp hy
    exact (ihp x z hz).trans (ihq z y hy)
  | either p q ihp ihq => exact fun x y hy => (List.mem_append.mp hy).elim (ihp x y) (ihq x y)
  | group i p ih =>
    intro x y hy
    obtain ⟨z,hz,rfl⟩ := List.mem_map.mp hy
    exact ih (x.openGroup i) z hz
  | times p least most manner ih =>
    cases manner with
    | greedy => exact Onward.times ih least most false
    | lazy => exact Onward.times ih least most true
    | possessive => exact Onward.once (Onward.times (Onward.once ih) least most false)
  | atomic p ih => exact Onward.once ih
  | look behind negated p ih =>
    intro x y hy
    simp only [ends] at hy
    split at hy
    · split at hy
      · cases hy
      · rw [List.mem_singleton.mp hy]
        exact ⟨[],rfl⟩
    · split at hy
      · exact List.mem_singleton.mp hy ▸ Onward.refl x
      · cases hy
  | again i letters =>
    intro x y hy
    obtain ⟨t,-,ht⟩ := Option.bind_eq_some_iff.mp (Option.mem_toList.mp hy)
    exact Onward.behind ht
  | given i p q ihp ihq =>
    intro x y hy
    simp only [ends] at hy
    split at hy
    · exact ihp x y hy
    · exact ihq x y hy

end Pattern

end DocLint
