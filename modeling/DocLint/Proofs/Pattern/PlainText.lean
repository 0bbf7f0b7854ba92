import DocLint.Proofs.Pattern.EndMark
import DocLint.Publicity

/-!
Patterns made of characters that stand for themselves. They match their own text, so a name of such characters
is looked for literally among the decorators of a method.
-/

set_option autoImplicit false

namespace DocLint

namespace Pattern

variable {named? : Text → Option Char} {t : Text} {c : Char}

def isPlain (c : Char) : Bool := !"\\[(.^$*+?\x7b|)".toList.contains c

def char (c : Char) : Pattern := (single {} (.code c.toNat)).pattern

/-! ### Reading -/

theorem ofText?_plain (ht : ∀ c ∈ t, isPlain c = true) (u : Text) :
    PatternToken.ofText? (t ++ u) = (PatternToken.ofText? u).map (t.map .plain ++ ·) := by
  induction t with
  | nil => cases h : PatternToken.ofText? u <;> simp [h]
  | cons c t ih =>
    obtain ⟨hc,ht⟩ := List.forall_mem_cons.mp ht
    have hslash : c ≠ '\\' := by
      rintro rfl
      exact absurd hc (by decide)
    rw [List.cons_append,PatternToken.ofText?,if_neg hslash,ih ht,Option.map_map]
    · rfl
    · exact fun _ _ h _ => hslash h

theorem piece_plain (hc : isPlain c = true) (nested : PatternFlags → Reader (List Pattern)) (flags : PatternFlags)
    (fuel : Nat) (atStart : Bool) (last : Option Item) :
    piece named? nested flags fuel atStart last (.plain c) = pure (.item (single flags (.code c.toNat))) := by
  unfold piece
  split
  case h_11 =>
    rename_i heq
    cases heq
    rfl
  all_goals
    rename_i heq
    cases heq <;> exact absurd hc (by decide)

theorem sequence_plain (ht : ∀ c ∈ t, isPlain c = true) {nested : PatternFlags → Reader (List Pattern)}
    {flags : PatternFlags} (hflags : flags.verbose = false) (first : Bool) (fuel : Nat) (items : List Item)
    (ts : List PatternToken) (s : Reading) :
    sequence named? nested (fuel + t.length) flags first items { s with rest := t.map .plain ++ ts } =
      sequence named? nested fuel flags first (items ++ t.map fun c => single flags (.code c.toNat))
        { s with rest := ts } := by
  induction t generalizing items with
  | nil => simp
  | cons c t ih =>
    obtain ⟨hc,ht⟩ := List.forall_mem_cons.mp ht
    have hbar : c ≠ '|' ∧ c ≠ ')' := by
      constructor <;> rintro rfl <;> exact absurd hc (by decide)
    have htake : Reader.takeIf (fun u => u != .plain '|' && u != .plain ')')
        { s with rest := (c :: t).map .plain ++ ts } =
          some (some (.plain c), { s with rest := t.map .plain ++ ts }) := by
      simp [Reader.takeIf,hbar]
    rw [List.length_cons,← Nat.add_assoc,sequence,Reader.bind_of_eq_some htake]
    simp only [hflags,Bool.false_and,Bool.false_eq_true,if_false,piece_plain hc,pure_bind]
    rw [ih ht]
    simp

theorem ofTokens?_of_sequence {ts : List PatternToken} (items : List Item)
    (h : ∀ nested, sequence named? nested (ts.length + 1) {} true [] { rest := ts } =
      some ((items, {}), { rest := [] })) :
    Source.ofTokens? named? ts = some { alternatives := [inOrder (items.map Item.pattern)] } := by
  have hone := alternation_of_rest (ts.length + 1) (h (alternatives named? (ts.length + 2) (ts.length + 2))) rfl
  exact Option.bind_eq_some_iff.mpr ⟨_,hone,rfl⟩

theorem ofText?_accessorPattern (ht : ∀ c ∈ t, isPlain c = true) :
    Source.ofText? named? (Definition.accessorPattern t) =
      some { alternatives := [inOrder (.anchor .start :: (t ++ ['.']).map char)] } := by
  have htokens : PatternToken.ofText? (Definition.accessorPattern t) =
      some (.plain '^' :: (t.map .plain ++ [.escaped '.'])) := by
    change PatternToken.ofText? ('^' :: (t ++ ['\\', '.'])) = _
    rw [PatternToken.ofText?,if_neg (by decide),ofText?_plain ht]
    · rfl
    · simp
  rw [Source.ofText?,htokens,Option.bind_some,
    ofTokens?_of_sequence (.ofAnchor .start :: (t ++ ['.']).map fun c => single {} (.code c.toNat))]
  · rw [List.map_cons,List.map_map]
    rfl
  · intro nested
    have hlength : (PatternToken.plain '^' :: (t.map .plain ++ [.escaped '.'])).length + 1 = 2 + t.length + 1 := by
      simp
      omega
    rw [hlength]
    change sequence named? nested (2 + t.length) {} true [.ofAnchor .start]
      { rest := t.map .plain ++ [.escaped '.'] } = _
    rw [sequence_plain ht rfl true 2 [.ofAnchor .start] [.escaped '.'] { rest := [] },List.map_append]
    rfl

/-! ### Matching -/

theorem contains_code {d : Char} : ({ items := [.code c.toNat] } : CharClass).contains d = true ↔ d = c := by
  simp [CharClass.contains,CharClass.holds,Letters.same,Letters.key,Letters.lower,Char.toNat_inj]

theorem mem_ends_char {x y : Spot} : y ∈ (char c).ends x ↔ x.next? = some (c, y) := by
  change y ∈ charEnds (CharClass.contains { items := [.code c.toNat] }) x ↔ _
  unfold charEnds
  cases x.next? with
  | none => simp
  | some dz =>
    obtain ⟨d,z⟩ := dz
    simp only [contains_code]
    split
    · rename_i hd
      simp [hd,eq_comm]
    · rename_i hd
      simp [hd]

theorem exists_ends_plain (t : Text) (x : Spot) :
    (∃ y, y ∈ (inOrder (t.map char)).ends x) ↔ t <+: x.rest := by
  induction t generalizing x with
  | nil => simp [inOrder,ends]
  | cons c t ih =>
    have hstep : (∃ y, y ∈ (inOrder ((c :: t).map char)).ends x) ↔ ∃ z, x.next? = some (c, z) ∧ t <+: z.rest := by
      change (∃ y, y ∈ ((char c).ends x).flatMap (inOrder (t.map char)).ends) ↔ _
      simp only [List.mem_flatMap,mem_ends_char,← ih]
      constructor
      · rintro ⟨y,z,hz,hy⟩
        exact ⟨z,hz,y,hy⟩
      · rintro ⟨z,hz,y,hy⟩
        exact ⟨y,z,hz,hy⟩
    rw [hstep,Spot.next?]
    cases x.rest with
    | nil => simp
    | cons d ds =>
      rw [List.cons_prefix_cons]
      constructor
      · rintro ⟨z,hz,hbehind⟩
        cases hz
        exact ⟨rfl,hbehind⟩
      · rintro ⟨rfl,hbehind⟩
        exact ⟨_,rfl,hbehind⟩

/-- A method with a name of characters that stand for themselves sets or deletes a property if a decorator opens
with the name and a dot. -/
theorem opens_accessorPattern [Resources] (hpatterns : Resources.MatchesPatterns named?)
    (ht : ∀ c ∈ t, isPlain c = true) : ∃ p, Resources.matcher? (Definition.accessorPattern t) = some p ∧
      ∀ u, p.opens u = true ↔ t ++ ['.'] <+: u := by
  refine ⟨_,by rw [hpatterns,ofText?_accessorPattern ht]; rfl,fun u => ?_⟩
  change matchesOpening (inOrder (.anchor .start :: (t ++ ['.']).map char)) u = true ↔ _
  rw [matchesOpening_iff,← exists_ends_plain _ { rest := u }]
  exact exists_congr fun y => by simp [inOrder,ends,Anchor.holds]

end Pattern

end DocLint
