import DocLint.Proofs.Outline.Place

/-!
What a run of the readers can do to the place at which it stands, said once for each reader. The
definitions that a run brings home are described by a relation with a rule for each step, so that
what holds of all of them is shown by induction on the rules.
-/

set_option autoImplicit false

namespace DocLint.Outline

variable {α β : Type} {ts : List Token} {n m k : Nat} {t : Token}

/-! ### Brackets -/

def net (change : Token → Int) (ts : List Token) (n m : Nat) : Int :=
  ((ts.take m).drop n).foldl (fun sum t => sum + change t) 0

@[simp] theorem net_self (change : Token → Int) (ts : List Token) (n : Nat) : net change ts n n = 0 := by
  simp [net]

theorem net_succ (change : Token → Int) (hn : n ≤ m) (ht : ts[m]? = some t) :
    net change ts n (m + 1) = net change ts n m + change t := by
  have hm : m < ts.length := (List.getElem?_eq_some_iff.mp ht).1
  have hlen : n ≤ (ts.take m).length := by
    rw [List.length_take]
    omega
  simp [net,List.take_add_one,ht,List.drop_append_of_le_length hlen]

inductive Bracket where
  | round | square | curly
  deriving DecidableEq, Repr

namespace Bracket

def opening : Bracket → Text
  | .round => "("
  | .square => "["
  | .curly => "\x7b"

def closing : Bracket → Text
  | .round => ")"
  | .square => "]"
  | .curly => "\x7d"

def change (b : Bracket) (t : Token) : Int :=
  if t.is .op b.opening then 1 else if t.is .op b.closing then -1 else 0

end Bracket

/-! ### Readers around definitions -/

/-- From a place on, tokens are passed over up to the first one that fits, which is taken too; or up to
the end, if there is none. -/
def Leaps (ts : List Token) (n : Nat) (p : Token → Bool) (m : Nat) : Prop :=
  (∃ i t, n ≤ i ∧ m = i + 1 ∧ ts[i]? = some t ∧ p t = true ∧ Through ts n i (p · = false)) ∨
    (m = ts.length ∧ Through ts n m (p · = false))

theorem Moves.within {r : Reader α} {Q : α → Nat → Prop} (h : n ≤ ts.length → Moves ts n r Q) :
    Moves ts n r Q := fun s hs => h hs.le s hs

theorem leapStep_moves (kind : TokenKind) (value : Option Text)
    (hI : Through ts n k (Token.matches · kind value = false)) (hk : n ≤ k) :
    Moves ts k (leapStep kind value ()) fun v m =>
      v.elim (fun _ => k < m ∧ Through ts n m (Token.matches · kind value = false))
        fun _ => Leaps ts n (Token.matches · kind value) m := by
  refine Moves.within fun hle => Moves.current?_bind ?_
  cases ht : ts[k]? with
  | none =>
    have hlen : ts.length ≤ k := List.getElem?_eq_none_iff.mp ht
    exact Moves.pure (.inr ⟨by omega,hI⟩)
  | some t =>
    refine Moves.move_bind fun _ _ => Moves.pure ?_
    cases hm : Token.matches t kind value with
    | true => exact .inl ⟨k,t,hk,rfl,ht,hm,hI⟩
    | false => exact ⟨Nat.lt_succ_self k,hI.snoc ht hm⟩

theorem leapfrog_moves (kind : TokenKind) (value : Option Text) :
    Moves ts n (leapfrog kind value) fun _ m => Leaps ts n (Token.matches · kind value) m :=
  Moves.loop (I := fun _ k => Through ts n k (Token.matches · kind value = false))
    (Through.empty (Nat.le_refl n)) fun _ _ hk hI => leapStep_moves kind value hI hk

theorem skipStep_moves (hI : Through ts n k (isFiller · = true)) :
    Moves ts k (skipStep ()) fun v m =>
      v.elim (fun _ => k < m ∧ Through ts n m (isFiller · = true))
        fun _ => Through ts n m (isFiller · = true) := by
  refine Moves.current_bind fun t ht => ?_
  split
  · rename_i hf
    have hI' := hI.snoc ht hf
    refine Moves.move_bind fun _ _ => Moves.current_bind fun _ _ => Moves.note_bind (Moves.pure ?_)
    split
    · exact ⟨Nat.lt_succ_self k,hI'⟩
    · exact hI'
  · exact Moves.pure hI

theorem skipComment_moves :
    Moves ts n skipComment fun _ m => Through ts n m (isFiller · = true) :=
  Moves.loop (I := fun _ k => Through ts n k (isFiller · = true)) (Through.empty (Nat.le_refl n))
    fun _ _ _ hI => skipStep_moves hI

def Documented (ts : List Token) (n m : Nat) (doc : Option Docstring) : Prop :=
  ∃ k t, n ≤ k ∧ Through ts n k (isFiller · = true) ∧ ts[k]? = some t ∧ isFiller t = false ∧
    doc = docstringOf t ∧ m = if t.kind = .string then k + 1 else k

theorem docstringStep_moves (hI : Through ts n k (isFiller · = true)) (hk : n ≤ k) :
    Moves ts k (docstringStep ()) fun v m =>
      v.elim (fun _ => k < m ∧ Through ts n m (isFiller · = true)) (Documented ts n m) := by
  refine Moves.current_bind fun t ht => ?_
  split
  · rename_i hf
    exact Moves.move_bind fun _ _ => Moves.current_bind fun _ _ =>
      Moves.note_bind (Moves.pure ⟨Nat.lt_succ_self k,hI.snoc ht hf⟩)
  · rename_i hf
    rw [Bool.not_eq_true] at hf
    split
    · rename_i hs
      exact Moves.move_bind fun _ _ =>
        Moves.pure ⟨k,t,hk,hI,ht,hf,by simp [docstringOf,hs],by simp [hs]⟩
    · rename_i hs
      exact Moves.pure ⟨k,t,hk,hI,ht,hf,by simp [docstringOf,hs],by simp [hs]⟩

theorem docstring_moves : Moves ts n docstring fun doc m => Documented ts n m doc :=
  Moves.current?_bind (Moves.note_bind (Moves.loop (I := fun _ k => Through ts n k (isFiller · = true))
    (Through.empty (Nat.le_refl n)) fun _ _ hk hI => docstringStep_moves hI hk))

theorem decoratorStep_moves (d : OpenDecorator) (hI : Through ts n k (opensDecorated · = false)) :
    Moves ts k (decoratorStep d) fun v m =>
      v.elim (fun _ => k < m ∧ Through ts n m (opensDecorated · = false))
        fun _ => Through ts n m (opensDecorated · = false) := by
  refine Moves.current?_bind ?_
  cases ht : ts[k]? with
  | none => exact Moves.modify_bind (fun _ => ⟨rfl,rfl,rfl⟩) (Moves.pure hI)
  | some t =>
    refine Moves.note_bind ?_
    split
    · exact Moves.modify_bind (fun _ => ⟨rfl,rfl,rfl⟩) (Moves.pure hI)
    · rename_i ho
      rw [Bool.not_eq_true] at ho
      have hgo : k < k + 1 ∧ Through ts n (k + 1) (opensDecorated · = false) :=
        ⟨Nat.lt_succ_self k,hI.snoc ht ho⟩
      split
      · exact Moves.modify_bind (fun _ => ⟨rfl,rfl,rfl⟩) (Moves.move_bind fun _ _ => Moves.pure hgo)
      · exact Moves.move_bind fun _ _ => Moves.pure hgo

theorem decorators_moves :
    Moves ts n decorators fun _ m => Through ts n m (opensDecorated · = false) :=
  Moves.loop (I := fun _ k => Through ts n k (opensDecorated · = false))
    (Through.empty (Nat.le_refl n)) fun d _ _ hI => decoratorStep_moves d hI

/-! ### Exported names -/

theorem exportContentStep_moves (surrounded : Bool) (content : Text)
    (hI : Through ts n k (·.kind ≠ .newline)) :
    Moves ts k (exportContentStep surrounded content) fun v m =>
      v.elim (fun _ => k < m ∧ Through ts n m (·.kind ≠ .newline))
        fun _ => Through ts n m (·.kind ≠ .newline) := by
  refine Moves.current_bind fun t ht => ?_
  split
  · exact Moves.pure hI
  · split
    · exact Moves.pure hI
    · rename_i hend
      have hgo : k < k + 1 ∧ Through ts n (k + 1) (·.kind ≠ .newline) :=
        ⟨Nat.lt_succ_self k,hI.snoc ht fun h => hend (.inl h)⟩
      split
      · exact Moves.move_bind fun _ _ => Moves.pure hgo
      · split
        · exact Moves.move_bind fun _ _ => Moves.pure hgo
        · exact Moves.pure hI

theorem exportsEndStep_moves (hI : Through ts n k (·.kind ≠ .newline)) :
    Moves ts k (exportsEndStep ()) fun v m =>
      v.elim (fun _ => k < m ∧ Through ts n m (·.kind ≠ .newline))
        fun _ => Through ts n m (·.kind ≠ .newline) := by
  refine Moves.current_bind fun t ht => ?_
  split
  · exact Moves.pure hI
  · split
    · rename_i hk
      exact Moves.move_bind fun _ _ => Moves.pure ⟨Nat.lt_succ_self k,hI.snoc ht (by simp [hk])⟩
    · exact Moves.modify_bind (fun _ => ⟨rfl,rfl,rfl⟩) (Moves.pure hI)

theorem exportedContent_moves [Resources] (surrounded : Bool) :
    Moves ts n (exportedContent surrounded) fun _ m => Through ts n m (·.kind ≠ .newline) := by
  have hcontent : Moves ts n (exportContent surrounded) fun _ m => Through ts n m (·.kind ≠ .newline) :=
    Moves.loop (I := fun _ k => Through ts n k (·.kind ≠ .newline)) (Through.empty (Nat.le_refl n))
      fun content _ _ hI => exportContentStep_moves surrounded content hI
  -- Behind the names, and behind their bracket, the rest of the line is looked at.
  have hrest (content : Text) {k : Nat} (hI : Through ts n k (·.kind ≠ .newline)) :
      Moves ts k (if (!surrounded && !content.contains ',') = true then do
          let kind := (← current).kind
          modify fun s => { s with exportFault := some (.unexpectedKind kind) }
        else do
          evaluateExports content
          exportsEnd) fun _ m => Through ts n m (·.kind ≠ .newline) := by
    split
    · exact Moves.current_bind fun _ _ => Moves.modify (fun _ => ⟨rfl,rfl,rfl⟩) hI
    · refine Moves.modify_bind (fun s => by split <;> exact ⟨rfl,rfl,rfl⟩) ?_
      exact Moves.loop (I := fun _ k => Through ts n k (·.kind ≠ .newline)) hI
        fun _ _ _ hI => exportsEndStep_moves hI
  refine Moves.bind hcontent fun v k hk hI => ?_
  cases v with
  | none => exact Moves.modify (fun _ => ⟨rfl,rfl,rfl⟩) hI
  | some content =>
    cases surrounded with
    | false => exact hrest content hI
    | true => exact Moves.consume_bind fun t ht hk => hrest content (hI.snoc ht (by simp [hk]))

theorem exportStatement_moves [Resources] :
    Moves ts n exportStatement fun _ m => (∃ t, ts[n]? = some t ∧ t.kind = .name) ∧ n < m ∧
      Through ts n m (·.kind ≠ .newline) := by
  have hfirst {t : Token} (ht : ts[n]? = some t) (hk : t.kind = .name) :
      Through ts n (n + 1) (·.kind ≠ .newline) :=
    (Through.empty (Nat.le_refl n)).snoc ht (by simp [hk])
  refine Moves.current_bind fun t ht => ?_
  split
  · exact Moves.throw (by simp)
  · refine Moves.consume_bind fun t ht hk => Moves.get_bind fun s _ => ?_
    split
    · exact Moves.modify (fun _ => ⟨rfl,rfl,rfl⟩) ⟨⟨t,ht,hk⟩,Nat.lt_succ_self n,hfirst ht hk⟩
    · refine Moves.current_bind fun u hu => ?_
      split
      · exact Moves.modify (fun _ => ⟨rfl,rfl,rfl⟩) ⟨⟨t,ht,hk⟩,Nat.lt_succ_self n,hfirst ht hk⟩
      · refine Moves.consume_bind fun u hu hop => Moves.current_bind fun v hv => ?_
        have hsecond := (hfirst ht hk).snoc hu (by simp [hop])
        dsimp only
        split
        · refine Moves.consume_bind fun w hw hkw => (exportedContent_moves _).imp fun _ m hm h => ?_
          exact ⟨⟨t,ht,hk⟩,by omega,(hsecond.snoc hw (by simp [hkw])).append h⟩
        · refine (exportedContent_moves _).imp fun _ m hm h => ?_
          exact ⟨⟨t,ht,hk⟩,by omega,hsecond.append h⟩

/-! ### Imports -/

theorem importSourceStep_moves (isFeature : Bool)
    (hI : Through ts n k fun t => t.kind = .newline → t.value = "import".toList) :
    Moves ts k (importSourceStep isFeature ()) fun v m =>
      v.elim (fun _ => k < m ∧ Through ts n m fun t => t.kind = .newline → t.value = "import".toList)
        fun _ => Through ts n m fun t => t.kind = .newline → t.value = "import".toList := by
  refine Moves.current?_bind ?_
  cases ht : ts[k]? with
  | none => exact Moves.pure hI
  | some t =>
    dsimp only
    split
    · rename_i hv
      exact Moves.move_bind fun _ _ => Moves.pure (hI.snoc ht fun _ => hv)
    · split
      · rename_i hk
        refine Moves.move_bind fun _ _ => Moves.pure ⟨Nat.lt_succ_self k,hI.snoc ht fun hn => ?_⟩
        rw [hn] at hk
        simp at hk
      · exact Moves.pure hI

/-- Two tokens are taken in any case: the word itself and the one behind it. -/
theorem importSource_moves :
    Moves ts n importSource fun _ m => n + 2 ≤ m ∧
      Through ts (n + 2) m fun t => t.kind = .newline → t.value = "import".toList := by
  refine Moves.current_bind fun t _ => ?_
  split
  · exact Moves.throw (by simp)
  · refine Moves.move_bind fun _ _ => Moves.current_bind fun u _ => Moves.move_bind fun _ _ => ?_
    refine (Moves.loop (I := fun _ k => Through ts (n + 2) k fun t =>
      t.kind = .newline → t.value = "import".toList) (Through.empty (Nat.le_refl _))
      fun _ _ _ hI => importSourceStep_moves _ hI).imp fun _ m hm h => ⟨hm,h⟩

def isImported (t : Token) : Prop := t.kind = .name ∨ (t.kind = .op ∧ t.value = ",".toList)

theorem importedAlias_moves :
    Moves ts n importedAlias fun _ m => Through ts n m isImported := by
  have hempty : Through ts n n isImported := Through.empty (Nat.le_refl n)
  refine Moves.current_bind fun t ht => ?_
  split
  · refine Moves.consume_bind fun t ht hk => Moves.current_bind fun u hu => ?_
    have hone := hempty.snoc ht (.inl hk)
    split
    · exact Moves.consume fun v hv hkv => hone.snoc hv (.inl hkv)
    · exact Moves.pure hone
  · exact Moves.pure hempty

theorem importedComma_moves :
    Moves ts n importedComma fun _ m => Through ts n m isImported := by
  have hempty : Through ts n n isImported := Through.empty (Nat.le_refl n)
  refine Moves.current_bind fun t ht => ?_
  split
  · rename_i hv
    refine Moves.consume fun u hu hk => hempty.snoc hu (.inr ⟨hk,?_⟩)
    cases ht.symm.trans hu
    exact hv
  · exact Moves.pure hempty

theorem importedName_moves (isFeature : Bool) (u : Token) :
    Moves ts n (importedName isFeature u) fun _ m => n < m ∧ Through ts n m isImported := by
  have hrest : Moves ts n (do
      consume .name
      note (.imported (← current))
      importedAlias
      importedComma
      note (.imported (← current))) fun _ m => n < m ∧ Through ts n m isImported := by
    refine Moves.consume_bind fun t ht hk => Moves.current_bind fun _ _ => Moves.note_bind ?_
    have hone := (Through.empty (Nat.le_refl n)).snoc ht (P := isImported) (.inl hk)
    refine Moves.bind importedAlias_moves fun _ i hi h₁ => ?_
    refine Moves.bind importedComma_moves fun _ j hj h₂ => ?_
    exact Moves.current_bind fun _ _ => Moves.note ⟨by omega,(hone.append h₁).append h₂⟩
  refine Moves.note_bind ?_
  split
  · refine Moves.bind (Q := fun _ m => m = n) (Moves.note_bind (Moves.modify (fun s => ?_) rfl)) ?_
    · split <;> exact ⟨rfl,rfl,rfl⟩
    · rintro _ _ - rfl
      exact hrest
  · exact hrest

/-- What may be taken with all imported names: inside brackets no operator but a comma, and otherwise no
end of a line. -/
def isAmongImported (bracketed : Bool) (t : Token) : Prop :=
  if bracketed then t.kind = .op → t.value = ",".toList else t.kind ≠ .newline

theorem isAmongImported_of_isImported (bracketed : Bool) (h : isImported t) :
    isAmongImported bracketed t := by
  rcases h with h | h <;> cases bracketed <;> simp [isAmongImported,h]

theorem importedNamesStep_moves (isFeature bracketed : Bool)
    (hI : Through ts n k (isAmongImported bracketed)) :
    Moves ts k (importedNamesStep isFeature bracketed ()) fun v m =>
      v.elim (fun _ => k < m ∧ Through ts n m (isAmongImported bracketed))
        fun _ => Through ts n m (isAmongImported bracketed) := by
  refine Moves.current_bind fun t ht => ?_
  split
  · exact Moves.pure hI
  · rename_i hend
    split
    · refine Moves.bind (importedName_moves isFeature t) fun _ m _ h => Moves.pure ⟨h.1,hI.append ?_⟩
      exact h.2.mono fun u hu => isAmongImported_of_isImported bracketed hu
    · refine Moves.move_bind fun _ _ => Moves.pure ⟨Nat.lt_succ_self k,hI.snoc ht ?_⟩
      cases bracketed <;> simp_all [isAmongImported,endsImport]

theorem importedNames_moves (isFeature : Bool) :
    Moves ts n (importedNames isFeature) fun _ m => Through ts n m (·.kind ≠ .newline) ∨
      ∃ t, ts[n]? = some t ∧ t.is .op "(" = true ∧ n < m ∧
        Through ts (n + 1) m fun t => t.kind = .op → t.value = ",".toList := by
  have hloop (bracketed : Bool) {k : Nat} : Moves ts k (loop (importedNamesStep isFeature bracketed) ())
      fun _ m => Through ts k m (isAmongImported bracketed) :=
    Moves.loop (I := fun _ i => Through ts k i (isAmongImported bracketed))
      (Through.empty (Nat.le_refl k)) fun _ _ _ hI => importedNamesStep_moves isFeature bracketed hI
  refine Moves.current_bind fun t ht => ?_
  cases hv : t.value == "(".toList with
  | false => exact (hloop false).imp fun _ m _ h => .inl h
  | true =>
    refine Moves.consume_bind fun u hu hk => (hloop true).imp fun _ m hm h => .inr ⟨t,ht,?_,hm,h⟩
    cases ht.symm.trans hu
    simp only [Token.is,hk,hv,beq_self_eq_true,Bool.and_self]

/-! ### Headers -/

theorem parameterStep_moves {level : Int} (hk : n ≤ k)
    (hopen : ∀ t, ts[n]? = some t → t.is .op "(" = true) (hl : level = net Bracket.round.change ts n k)
    (hI : ∀ j, n < j → j ≤ k → 0 < net Bracket.round.change ts n j) :
    Moves ts k (parameterStep level) fun v m =>
      v.elim (fun l => k < m ∧ l = net Bracket.round.change ts n m ∧
          ∀ j, n < j → j ≤ m → 0 < net Bracket.round.change ts n j)
        fun _ => ∀ j, n < j → j ≤ m → 0 < net Bracket.round.change ts n j := by
  refine Moves.current_bind fun t ht => ?_
  split
  · exact Moves.pure hI
  · rename_i hstop
    have hsucc := net_succ Bracket.round.change hk ht
    have hchange : Bracket.round.change t =
        if t.is .op "(" then 1 else if t.is .op ")" then -1 else 0 := rfl
    refine Moves.move_bind fun _ _ => Moves.pure ⟨Nat.lt_succ_self k,?_,fun j hnj hj => ?_⟩
    · rw [hsucc,hl,hchange]
      split
      · rfl
      · split <;> omega
    · by_cases hjk : j ≤ k
      · exact hI j hnj hjk
      · obtain rfl : j = k + 1 := by omega
        rw [hsucc,hchange,← hl]
        -- The first token opens the list; at each other one, some parenthesis is open already.
        by_cases hkn : k = n
        · subst hkn
          rw [hl,net_self,if_pos (hopen t ht)]
          decide
        · have hpos : 0 < level := hl ▸ hI k (by omega) (Nat.le_refl k)
          split
          · omega
          · split
            · rename_i hclose
              simp only [hclose,Bool.true_and,beq_iff_eq] at hstop
              omega
            · omega

theorem parameters_moves (hopen : ∀ t, ts[n]? = some t → t.is .op "(" = true) :
    Moves ts n parameters fun _ m => ∀ j, n < j → j ≤ m → 0 < net Bracket.round.change ts n j :=
  Moves.loop (I := fun l k => l = net Bracket.round.change ts n k ∧
      ∀ j, n < j → j ≤ k → 0 < net Bracket.round.change ts n j)
    ⟨by simp,fun j h₁ h₂ => by omega⟩ fun _ _ hk hI => parameterStep_moves hk hopen hI.1 hI.2

/-- A header behind the name, up to its colon. No colon outside of parentheses stands before. -/
structure Signed (ts : List Token) (n i : Nat) : Prop where
  le : n ≤ i
  colon : ∃ t, ts[i]? = some t ∧ t.is .op ":" = true
  first : ∀ c t, n ≤ c → ts[c]? = some t → t.is .op ":" = true → net Bracket.round.change ts n c = 0 → i ≤ c

/-- A colon is taken from a place that no colon outside of parentheses precedes. -/
theorem colon_moves (hnk : n ≤ k) (hI : ∀ j, n < j → j ≤ k → 0 < net Bracket.round.change ts n j)
    (hopen : k = n ∨ ∀ t, ts[n]? = some t → t.is .op "(" = true) :
    Moves ts k (do if (← current).is .op ":" then consume .op else leapfrog .op (some ":"))
      fun _ m => m < ts.length → ∃ i, m = i + 1 ∧ Signed ts n i := by
  have hfirst {i : Nat} (hi : Through ts k i fun t => Token.matches t .op (some ":".toList) = false) :
      ∀ c t, n ≤ c → ts[c]? = some t → t.is .op ":" = true → net Bracket.round.change ts n c = 0 → i ≤ c := by
    intro c t hc ht hcolon hlevel
    refine Nat.le_of_not_lt fun hlt => ?_
    have hck : c < k := Nat.lt_of_not_le fun hkc => by
      have hno : t.is .op ":" = false := hi c t hkc hlt ht
      rw [hcolon] at hno
      cases hno
    rcases Nat.eq_or_lt_of_le hc with rfl | hnc
    · rcases hopen with rfl | hopen
      · omega
      · have h := hopen t ht
        simp only [Token.is,Bool.and_eq_true,beq_iff_eq] at h hcolon
        rw [h.2] at hcolon
        exact absurd hcolon.2 (by decide)
    · have := hI c hnc (by omega)
      omega
  refine Moves.current_bind fun t ht => ?_
  split
  · rename_i hcolon
    exact Moves.consume fun u hu _ _ =>
      ⟨k,rfl,hnk,⟨t,ht,hcolon⟩,hfirst (Through.empty (Nat.le_refl k))⟩
  · refine (leapfrog_moves .op (some ":")).imp fun _ m hm h hlt => ?_
    rcases h with ⟨i,u,hi,rfl,hu,hmatch,hthrough⟩ | ⟨rfl,-⟩
    · exact ⟨i,rfl,by omega,⟨u,hu,hmatch⟩,hfirst hthrough⟩
    · omega

theorem headerEnd_moves :
    Moves ts n headerEnd fun _ m => m < ts.length → ∃ i, m = i + 1 ∧ Signed ts n i := by
  refine Moves.current_bind fun t ht => ?_
  split
  · rename_i hopen
    have hfirst : ∀ u, ts[n]? = some u → u.is .op "(" = true := by
      intro u hu
      cases ht.symm.trans hu
      exact hopen
    refine Moves.bind (parameters_moves hfirst) fun _ k hk hI => ?_
    exact colon_moves hk hI (.inr hfirst)
  · exact colon_moves (Nat.le_refl n) (fun j h₁ h₂ => by omega) (.inl rfl)

/-! ### Definitions -/

structure Headed (ts : List Token) (n i : Nat) : Prop where
  keyword : ∃ t, ts[n]? = some t ∧ t.kind = .name ∧ (t.value = "def".toList ∨ t.value = "class".toList)
  signed : Signed ts (n + 2) i

/-- What is passed over without a definition: a statement about exported names, decorators, an import, or
a token that is none of the reader's business. -/
inductive Passage (ts : List Token) (n : Nat) : Nat → Prop
  | exports {m : Nat} (word : ∃ t, ts[n]? = some t ∧ t.kind = .name) (hlt : n < m) (inLine : Through ts n m (·.kind ≠ .newline)) : Passage ts n m
  | decorators {m : Nat} (mark : ∃ t, ts[n]? = some t ∧ t.is .op "@" = true)
      (fresh : freshAt ts n = true) (hlt : n < m) (inside : Through ts (n + 1) m (opensDecorated · = false)) :
      Passage ts n m
  | imports {k m : Nat} (word : ∃ t, ts[n]? = some t ∧ t.kind ≠ .indent ∧ t.value = "from".toList)
      (hk : n + 2 ≤ k) (hm : k ≤ m)
      (source : Through ts (n + 2) k fun t => t.kind = .newline → t.value = "import".toList)
      (names : Through ts k m (·.kind ≠ .newline) ∨ ∃ t, ts[k]? = some t ∧ t.is .op "(" = true ∧ k < m ∧
        Through ts (k + 1) m fun t => t.kind = .op → t.value = ",".toList) : Passage ts n m
  | token (other : ∃ t, ts[n]? = some t ∧ t.kind ≠ .indent) : Passage ts n (n + 1)

theorem Passage.lt (h : Passage ts n m) : n < m := by
  cases h with
  | exports _ hlt _ => exact hlt
  | decorators _ _ hlt _ => exact hlt
  | imports _ hk hm _ _ => omega
  | token _ => omega

/-- The definitions that are found from a place on, up to the end of their block or of the text. -/
inductive Gathers (ts : List Token) : Nat → List Definition → Nat → Prop
  | ended {n : Nat} (h : ts.length = n) : Gathers ts n [] n
  | dedent {n : Nat} (h : ∃ t, ts[n]? = some t ∧ t.kind = .dedent) : Gathers ts n [] (n + 1)
  | passing {n k m : Nat} {ds : List Definition} (h : Passage ts n k) (next : Gathers ts k ds m) :
      Gathers ts n ds m
  | block {n k m : Nat} {inner ds : List Definition} (h : ∃ t, ts[n]? = some t ∧ t.kind = .indent)
      (within : Gathers ts (n + 1) inner k) (next : Gathers ts k ds m) : Gathers ts n (inner ++ ds) m
  | definition {n i j l k m : Nat} {d : Definition} {ds : List Definition} (header : Headed ts n i)
      (hj : i < j) (opening : Through ts (i + 1) j (·.kind ≠ .indent))
      (indent : ∃ t, ts[j]? = some t ∧ t.kind = .indent) (documented : Documented ts (j + 1) l d.docstring)
      (children : Gathers ts l d.children k) (start : d.start = rowAt ts n)
      (stop : d.stop = rowAt ts k - 1) (next : Gathers ts k ds m) : Gathers ts n (d :: ds) m
  | oneLine {n i l k m : Nat} {d : Definition} {ds : List Definition} (header : Headed ts n i)
      (first : ∃ t, ts[i + 1]? = some t ∧ t.kind ≠ .newline ∧ t.kind ≠ .comment)
      (documented : Documented ts (i + 1) l d.docstring)
      (rest : Leaps ts l (Token.matches · .newline none) k) (children : d.children = [])
      (start : d.start = rowAt ts n) (stop : d.stop = rowAt ts l) (next : Gathers ts k ds m) :
      Gathers ts n (d :: ds) m

theorem takePending_moves : Moves ts n takePending fun _ m => m = n :=
  Moves.get_bind fun _ _ => Moves.note_bind
    (Moves.modify_bind (fun _ => ⟨rfl,rfl,rfl⟩) (Moves.pure rfl))

theorem Documented.le {doc : Option Docstring} (h : Documented ts n m doc) : n ≤ m := by
  obtain ⟨k,t,hk,-,-,-,-,rfl⟩ := h
  split <;> omega

variable {region : Region} {exporting fresh : Bool} {kind : DefinitionKind}
  {nested : Region → Reader (List Definition)} {next : Region → Bool → Reader (List Definition)}

/-- A definition that is read can stand before all definitions that are found behind it. -/
theorem definitionWith_moves
    (hword : ∃ t, ts[n]? = some t ∧ (t.value = "def".toList ∨ t.value = "class".toList))
    (hnested : ∀ k, n < k → Moves ts k (nested (.within kind)) (Gathers ts k)) :
    Moves ts n (definitionWith nested kind) fun d k => n < k ∧
      ∀ ds m, Gathers ts k ds m → Gathers ts n (d :: ds) m := by
  refine Moves.line_bind (Moves.consume_bind fun t ht hk => Moves.current_bind fun u hu => ?_)
  refine Moves.note_bind (Moves.move_bind fun _ _ => ?_)
  have hkeyword : ∃ t, ts[n]? = some t ∧ t.kind = .name ∧
      (t.value = "def".toList ∨ t.value = "class".toList) := by
    obtain ⟨t',ht',hv⟩ := hword
    cases ht.symm.trans ht'
    exact ⟨t,ht,hk,hv⟩
  refine Moves.bind headerEnd_moves fun _ p hp hsigned => Moves.current_bind fun first hfirst => ?_
  obtain ⟨i,rfl,hsig⟩ := hsigned (List.getElem?_eq_some_iff.mp hfirst).1
  -- What is noted at the end changes nothing.
  have hdone {d : Definition} {k : Nat} (hk : n < k)
      (h : ∀ ds m, Gathers ts k ds m → Gathers ts n (d :: ds) m) :
      Moves ts k (do
        note (.definitionDone kind u.value (← current?))
        return d) fun d k => n < k ∧ ∀ ds m, Gathers ts k ds m → Gathers ts n (d :: ds) m :=
    Moves.current?_bind (Moves.note_bind (Moves.pure ⟨hk,h⟩))
  dsimp only
  split
  · refine Moves.bind skipComment_moves fun _ p hp hskip => ?_
    refine Moves.bind (leapfrog_moves .indent none) fun _ q hq hleap => ?_
    refine Moves.current_bind fun v hv => ?_
    split
    · exact Moves.bind (Moves.throw (Q := fun _ _ => False) (by simp)) fun _ _ _ h => h.elim
    · obtain ⟨j,w,hpj,rfl,hw,hmatch,hthrough⟩ | ⟨rfl,-⟩ := hleap
      · have hindent : w.kind = .indent := by simpa [Token.matches] using hmatch
        have hopening : Through ts (i + 1) j (·.kind ≠ .indent) := by
          refine (hskip.mono fun x hx hxk => ?_).append (hthrough.mono fun x hx hxk => ?_)
          · simp [isFiller,hxk] at hx
          · simp [Token.matches,hxk] at hx
        refine Moves.bind docstring_moves fun doc l hl hdoc => ?_
        refine Moves.bind takePending_moves fun pending _ _ h => h ▸ Moves.note_bind ?_
        refine Moves.bind (hnested l (by omega)) fun children k hk hchildren => ?_
        refine Moves.note_bind (Moves.line_bind ?_)
        rw [pure_bind]
        exact hdone (by omega) fun ds m hnext => .definition ⟨hkeyword,hsig⟩ (by omega) hopening
          ⟨w,hw,hindent⟩ hdoc hchildren rfl rfl hnext
      · have := (List.getElem?_eq_some_iff.mp hv).1
        omega
  · rename_i hkind
    refine Moves.bind docstring_moves fun doc l hl hdoc => ?_
    refine Moves.bind takePending_moves fun pending _ _ h => h ▸ Moves.line_bind ?_
    refine Moves.bind (leapfrog_moves .newline none) fun _ k hk hleap => ?_
    rw [pure_bind]
    exact hdone (by omega) fun ds m hnext => .oneLine ⟨hkeyword,hsig⟩
      ⟨first,hfirst,not_or.mp hkind⟩ hdoc hleap rfl rfl rfl hnext

/-- What is read at a token and behind it, where the reader for the rest is known behind the token. -/
theorem definitionsAt_moves [Resources] (ht : ts[n]? = some t) (hfresh : fresh = true → freshAt ts n = true)
    (hnext : ∀ k, n < k → ∀ region exporting, Moves ts k (next region exporting) (Gathers ts k)) :
    Moves ts n (definitionsAt next region exporting fresh t) (Gathers ts n) := by
  have hpass {k : Nat} (h : Passage ts n k) : Moves ts k (next region exporting) (Gathers ts n) :=
    (hnext k h.lt region exporting).imp fun _ _ _ hd => .passing h hd
  unfold definitionsAt
  split
  · exact Moves.bind exportStatement_moves fun _ k _ h => hpass (.exports h.1 h.2.1 h.2.2)
  · split
    · rename_i hmark
      simp only [Bool.and_eq_true] at hmark
      refine Moves.consume_bind fun _ _ _ => Moves.bind decorators_moves fun _ k hk h => ?_
      exact hpass (.decorators ⟨t,ht,hmark.1⟩ (hfresh hmark.2) (by omega) h)
    · split
      · rename_i hword
        refine Moves.bind (definitionWith_moves ⟨t,ht,hword⟩ fun k hk => hnext k hk _ false) ?_
        intro d k _ h
        refine Moves.bind (hnext k h.1 region exporting) fun ds m _ hds => Moves.pure (h.2 ds m hds)
      · split
        · rename_i hindent
          refine Moves.consume_bind fun _ _ _ => ?_
          refine Moves.bind (hnext (n + 1) (Nat.lt_succ_self n) region false) fun inner k hk hin => ?_
          refine Moves.bind (hnext k (by omega) region exporting) fun ds m _ hds => ?_
          exact Moves.pure (.block ⟨t,ht,hindent⟩ hin hds)
        · rename_i hnot
          split
          · rename_i hdedent
            exact Moves.consume_bind fun _ _ _ => Moves.pure (.dedent ⟨t,ht,hdedent⟩)
          · split
            · rename_i hfrom
              refine Moves.bind (Q := fun _ m => ∃ k, n + 2 ≤ k ∧ k ≤ m ∧
                (Through ts (n + 2) k fun t => t.kind = .newline → t.value = "import".toList) ∧
                (Through ts k m (·.kind ≠ .newline) ∨ ∃ t, ts[k]? = some t ∧ t.is .op "(" = true ∧ k < m ∧
                  Through ts (k + 1) m fun t => t.kind = .op → t.value = ",".toList)) ?_ ?_
              · refine Moves.note_bind (Moves.bind importSource_moves fun _ k _ hsource => ?_)
                exact (importedNames_moves _).imp fun _ m hm hnames => ⟨k,hsource.1,hm,hsource.2,hnames⟩
              · rintro _ m - ⟨k,hk,hm,hsource,hnames⟩
                exact hpass (.imports ⟨t,ht,hnot,hfrom⟩ hk hm hsource hnames)
            · exact Moves.move_bind fun _ _ => hpass (.token ⟨t,ht,hnot⟩)

theorem definitionsWithin_moves [Resources] (fuel : Nat) (h : ts.length - n < fuel) :
    Moves ts n (definitionsWithin fuel region exporting) (Gathers ts n) := by
  induction fuel generalizing n region exporting with
  | zero => omega
  | succ fuel ih =>
    refine Moves.within fun hle => Moves.current?_bind ?_
    cases ht : ts[n]? with
    | none =>
      have hlen : ts.length ≤ n := List.getElem?_eq_none_iff.mp ht
      exact Moves.pure (.ended (by omega))
    | some t =>
      have hlt : n < ts.length := (List.getElem?_eq_some_iff.mp ht).1
      refine Moves.get_bind fun s hs => Moves.note_bind (definitionsAt_moves ht (hs.fresh ▸ id) ?_)
      exact fun k hk region exporting => ih (by omega)

theorem definitions_moves [Resources] : Moves ts n (definitions region exporting) (Gathers ts n) :=
  Moves.get_bind fun s hs => definitionsWithin_moves _ (by rw [hs.rest,List.length_drop]; omega)

/-- The parts of a module: its first line, the codes switched off, its docstring and its definitions. -/
def moduleParts [Resources] : Reader (Nat × Text × Option Docstring × List Definition) := do
  note .module
  let start ← line
  let skipped ← skipComment
  let docstring ← docstring
  let children ← definitions .module true
  return (start, skipped, docstring, children)

def assembled (name : Text) (source : List Text) (parts : Nat × Text × Option Docstring × List Definition)
    (s : State) : Module :=
  { name, source, start := parts.1, stop := s.line, docstring := parts.2.2.1, skipped := parts.2.1,
    children := parts.2.2.2, exports := s.exports, exportFault := s.exportFault, features := s.features }

/-- With its parts read, a module is put together if no token is left. -/
theorem module_run [Resources] (name : Text) (source : List Text) (s : State) : module name source s =
    match moduleParts s with
    | .error f s' => .error f s'
    | .ok parts s' =>
      if s'.rest.isEmpty then .ok (assembled name source parts s') { s' with notes := .moduleDone :: s'.notes }
      else .error (.mismatch none) s' := by
  have heq : module name source = do
      let parts ← moduleParts
      if (← current?).isSome then throw (.mismatch none)
      let s ← get
      note .moduleDone
      return assembled name source parts s := by
    simp only [module,moduleParts,bind_assoc,pure_bind,assembled]
  rw [heq]
  change EStateM.bind moduleParts _ s = _
  rw [EStateM.bind]
  cases moduleParts s with
  | error f s' => rfl
  | ok parts s' =>
    obtain ⟨rest,line,fresh,pending,exports,exportFault,features,notes⟩ := s'
    cases rest <;> rfl

structure Parted (ts : List Token) (start : Nat) (doc : Option Docstring) (children : List Definition)
    (j l m : Nat) : Prop where
  start : start = rowAt ts 0
  fillers : Through ts 0 j (isFiller · = true)
  documented : Documented ts j l doc
  children : Gathers ts l children m

theorem moduleParts_moves [Resources] : Moves ts 0 moduleParts fun v m => ∃ j l, Parted ts v.1 v.2.2.1 v.2.2.2 j l m := by
  refine Moves.note_bind (Moves.line_bind (Moves.bind skipComment_moves fun _ j _ hskip => ?_))
  refine Moves.bind docstring_moves fun doc l _ hdoc => ?_
  refine Moves.bind definitions_moves fun children m _ hchildren => ?_
  exact Moves.pure ⟨j,l,rfl,hskip,hdoc,hchildren⟩

theorem module_moves [Resources] (name : Text) (source : List Text) :
    Moves ts 0 (module name source) fun v _ => v.stop = rowAt ts ts.length ∧
      ∃ j l, Parted ts v.start v.docstring v.children j l ts.length := by
  intro s hs
  have hmoves := moduleParts_moves s hs
  rw [module_run]
  cases hrun : moduleParts s with
  | error f s' => rwa [hrun] at hmoves
  | ok parts s' =>
    rw [hrun] at hmoves
    obtain ⟨m,hm,hs',hparts⟩ := hmoves
    dsimp only
    cases hrest : s'.rest.isEmpty with
    | false => simp
    | true =>
      have hdrop : ts.drop m = [] := hs'.rest ▸ List.isEmpty_iff.mp hrest
      obtain rfl : m = ts.length := Nat.le_antisymm hs'.le (List.drop_eq_nil_iff.mp hdrop)
      exact ⟨ts.length,hm,hs'.of_cursor rfl rfl rfl,hs'.line,hparts⟩

end DocLint.Outline
