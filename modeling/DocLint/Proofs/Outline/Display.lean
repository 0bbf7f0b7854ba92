import DocLint.Proofs.Answer
import DocLint.Proofs.Exports
import DocLint.Proofs.Outline.Kinds
import DocLint.Proofs.Outline.Stated
import DocLint.Proofs.Outline.WithinLine
import DocLint.Resources.Builtin

/-!
The exported names written as a list or a tuple of literals. Such a statement is read as it is written,
whatever comments and line ends stand between the names, and the listed names alone are public in the module.
The one exception is a single literal in brackets without a comma, whose parts are all public.
-/

set_option autoImplicit false

namespace DocLint.Outline

variable {α β : Type} {ts us inside : List Token} {t u : Token} {ds : List Decorator} {surrounded fresh : Bool}
  {s s' : State}

def spelling [Resources] (l : NameList) : List (TokenKind × Text) :=
  l.ended.flatMap (fun q => [(TokenKind.string, q.text), (TokenKind.op, [','])]) ++
    l.last.toList.map fun q => (TokenKind.string, q.text)

theorem Operator.is_among {v : Text} (o : Operator v) {marks : List Text} (h : marks.contains v = true) :
    o.token.kind = .op ∧ marks.contains o.token.value = true := by
  refine ⟨kind_of_is o.isOperator,?_⟩
  rw [value_of_is o.isOperator]
  exact h

inductive Enclosure where
  | bare
  | round (opening : Operator "(") (closing : Operator ")")
  | square (opening : Operator "[") (closing : Operator "]")

namespace Enclosure

def opening : Enclosure → List Token
  | .bare => []
  | .round opening _ => [opening.token]
  | .square opening _ => [opening.token]

def closing : Enclosure → List Token
  | .bare => []
  | .round _ closing => [closing.token]
  | .square _ closing => [closing.token]

theorem brackets (e : Enclosure) : e = .bare ∨ ∃ o c, e.opening = [o] ∧ e.closing = [c] ∧
    (o.kind = .op ∧ openingBrackets.contains o.value = true) ∧
    (c.kind = .op ∧ closingBrackets.contains c.value = true) := by
  cases e with
  | bare => exact .inl rfl
  | round o c => exact .inr ⟨_,_,rfl,rfl,o.is_among (by decide),c.is_among (by decide)⟩
  | square o c => exact .inr ⟨_,_,rfl,rfl,o.is_among (by decide),c.is_among (by decide)⟩

end Enclosure

/-- A statement that lists the exported names. Comments and line ends may stand anywhere between the literals
and commas, and comments behind them. Without brackets, there is a comma. -/
structure Display [Resources] where
  name : Token
  equals : Operator "="
  enclosure : Enclosure
  inside : List Token
  listing : NameList
  remarks : List (TokenOf .comment)
  isName : name.is .name exportName = true
  code : inside.all isCode = true
  spelled : (inside.filter fun t => !t.kind.isLogicallyBlank).map (fun t => (t.kind, t.value)) =
    spelling listing
  commas : enclosure.opening = [] → listing.ended ≠ []

def Display.behind [Resources] (x : Display) : List Token :=
  x.enclosure.opening ++ (x.inside ++ (x.enclosure.closing ++ x.remarks.map (·.token)))

def Display.tokens [Resources] (x : Display) : List Token := x.name :: x.equals.token :: x.behind

/-! ### Readers that lead from a place and what is known there to others -/

/-- A reader succeeds at a place, with something known of the exported names, and leads to another place,
where something else may be known. -/
def Passes (r : Reader α) (p : Spot) (x : Option Exports × Option ExportFault) (a : α) (q : Spot)
    (y : Option Exports × Option ExportFault) : Prop :=
  ∀ s : State, s.spot = p → s.stated = x → ∃ s', r s = .ok a s' ∧ s'.spot = q ∧ s'.stated = y

namespace Passes

variable {r : Reader α} {f : α → Reader β} {p q v : Spot} {x y z : Option Exports × Option ExportFault} {a : α}
  {b : β}

theorem of_keeps (h : Runs r p a q) (hkeeps : Keeps r) : Passes r p x a q x := by
  intro s hs hx
  obtain ⟨s',hr,hq⟩ := h s hs
  exact ⟨s',hr,hq,hkeeps x s a s' hx hr⟩

theorem pure : Passes (pure a) p x a p x := fun s hs hx => ⟨s,rfl,hs,hx⟩

theorem bind (hr : Passes r p x a q y) (hf : Passes (f a) q y b v z) : Passes (r >>= f) p x b v z := by
  intro s hs hx
  obtain ⟨s₁,h₁,hq,hy⟩ := hr s hs hx
  obtain ⟨s₂,h₂,hv,hz⟩ := hf s₁ hq hy
  exact ⟨s₂,(bind_of_ok f h₁).trans h₂,hv,hz⟩

theorem get_bind {g : State → Reader β} (hg : ∀ s, s.spot = p → s.stated = x → Passes (g s) p x b q y) :
    Passes (get >>= g) p x b q y := fun s hs hx => hg s hs hx s hs hx

theorem modify {g : State → State} (hspot : ∀ s, (g s).spot = s.spot)
    (hstated : ∀ s, s.stated = x → (g s).stated = y) : Passes (modify g) p x () p y :=
  fun s hs hx => ⟨g s,rfl,(hspot s).trans hs,hstated s hx⟩

end Passes

/-! ### Reading the names -/

def isListed (t : Token) : Bool := t.kind.isLogicallyBlank || t.kind == .string || t.is .op ","

def writtenIn (ts : List Token) : Text := (ts.filter fun t => !t.kind.isLogicallyBlank).flatMap (·.value)

theorem writtenIn_blank (h : ∀ t ∈ ts, t.kind.isLogicallyBlank = true) : writtenIn ts = [] := by
  have hnone : (ts.filter fun t => !t.kind.isLogicallyBlank) = [] := by
    simpa [List.filter_eq_nil_iff] using h
  rw [writtenIn,hnone]
  rfl

theorem writtenIn_solid (h : ¬ t.kind.isLogicallyBlank = true) : writtenIn [t] = t.value := by
  simp [writtenIn,h]

theorem writtenIn_append (ts us : List Token) : writtenIn (ts ++ us) = writtenIn ts ++ writtenIn us := by
  simp [writtenIn]

theorem exportContent_loops (content : Text)
    (hin : ∀ t ∈ inside, (surrounded = true → closingBrackets.contains t.value = false) ∧ isListed t = true)
    (hu : (surrounded = true ∧ closingBrackets.contains u.value = true) ∨
      u.kind = .newline ∨ u.kind = .endMarker) :
    Loops (exportContentStep surrounded) content (.before (inside ++ u :: us) false ds)
      (some (content ++ writtenIn inside)) (.before (u :: us) false ds) := by
  -- Within the statement nothing is fresh, so a step changes only the tokens left and what is collected.
  induction inside generalizing content with
  | nil =>
    apply Loops.done
    refine Runs.bind Runs.current ?_
    simp only [writtenIn,List.filter_nil,List.flatMap_nil,List.append_nil]
    split
    · exact Runs.pure
    · rename_i hclosing
      have hkind : u.kind = .newline ∨ u.kind = .endMarker := hu.resolve_left (by simpa using hclosing)
      rw [if_pos hkind]
      exact Runs.pure
  | cons t ts ih =>
    obtain ⟨hopen,hlisted⟩ := hin t (by simp)
    have hmove : Runs move (.before (t :: (ts ++ u :: us)) false ds) t (.before (ts ++ u :: us) false ds) := by
      have hinner : t.kind.isInner = true := by
        cases hk : t.kind <;>
          simp_all [isListed,TokenKind.isLogicallyBlank,TokenKind.isInner,Token.is]
      have h := @Runs.move t (ts ++ u :: us) false ds (by simp)
      rwa [freshAfter_code hinner] at h
    have hgo : (surrounded && closingBrackets.contains t.value) = false := by
      cases surrounded with
      | false => rfl
      | true => simpa using hopen rfl
    have hnext : Runs (exportContentStep surrounded content) (.before (t :: (ts ++ u :: us)) false ds)
        (.inl (content ++ writtenIn [t])) (.before (ts ++ u :: us) false ds) := by
      refine Runs.bind Runs.current ?_
      simp only [hgo,Bool.false_eq_true,if_false]
      by_cases hblank : t.kind.isLogicallyBlank = true
      · have hkind : t.kind = .nl ∨ t.kind = .comment := by
          cases hk : t.kind <;> simp_all [TokenKind.isLogicallyBlank]
        have hother : ¬ (t.kind = .newline ∨ t.kind = .endMarker) := by
          rcases hkind with hk | hk <;> simp [hk]
        simp only [hother,hkind,if_true,if_false,writtenIn_blank (List.forall_mem_singleton.2 hblank),List.append_nil]
        exact Runs.bind hmove Runs.pure
      · have hsolid : t.kind = .string ∨ t.kind = .op ∧ t.value = ",".toList := by
          simpa [isListed,hblank,Token.is] using hlisted
        have hkind : ¬ (t.kind = .newline ∨ t.kind = .endMarker) ∧ ¬ (t.kind = .nl ∨ t.kind = .comment) := by
          rcases hsolid with hk | ⟨hk,-⟩ <;> simp [hk]
        simp only [hkind.1,hkind.2,hsolid.imp_right And.right,if_true,if_false,writtenIn_solid hblank]
        exact Runs.bind hmove Runs.pure
    rw [← List.singleton_append,writtenIn_append,← List.append_assoc]
    exact Loops.next hnext (by simp [Spot.before]) (ih _ fun y hy => hin y (by simp [hy]))

theorem exportsEnd_passes {x : Option Exports × Option ExportFault} (remarks : List (TokenOf .comment))
    (hu : u.kind = .newline ∨ u.kind = .endMarker) :
    Passes exportsEnd (.before (remarks.map (·.token) ++ u :: us) false ds) x () (.before (u :: us) false ds) x := by
  suffices hrep : ∀ n, remarks.length < n → Passes (repeating exportsEndStep n ())
      (.before (remarks.map (·.token) ++ u :: us) false ds) x () (.before (u :: us) false ds) x by
    refine Passes.get_bind fun s hs _ => hrep _ ?_
    have hrest : s.rest = remarks.map (·.token) ++ u :: us := congrArg Spot.rest hs
    rw [hrest,List.length_append,List.length_map,List.length_cons]
    omega
  induction remarks with
  | nil =>
    intro n hn
    obtain ⟨n,rfl⟩ := Nat.exists_eq_add_one.2 hn
    refine Passes.bind (a := .inr ()) (Passes.bind (.of_keeps Runs.current Keeps.current) ?_) Passes.pure
    have hstop : (u.kind.endsStatement || u.kind == .endMarker) = true := by
      rcases hu with h | h <;> simp [h,TokenKind.endsStatement]
    simp only [hstop,if_true]
    exact Passes.pure
  | cons c remarks ih =>
    intro n hn
    obtain ⟨n,rfl⟩ := Nat.exists_eq_add_one.2 (Nat.zero_lt_of_lt hn)
    have hmove := @Runs.move c.token (remarks.map (·.token) ++ u :: us) false ds (by simp)
    rw [freshAfter_code (by rw [c.isKind]; rfl)] at hmove
    have hstep : Passes (exportsEndStep ()) (.before (c.token :: (remarks.map (·.token) ++ u :: us)) false ds) x
        (.inl ()) (.before (remarks.map (·.token) ++ u :: us) false ds) x := by
      refine Passes.bind (.of_keeps Runs.current Keeps.current) ?_
      simp only [c.isKind]
      exact Passes.bind (.of_keeps hmove Keeps.move) Passes.pure
    exact Passes.bind hstep (ih n (by simpa using hn))

/-! ### Reading the statement -/

theorem flatMap_spelling [Resources] (l : NameList) : (spelling l).flatMap Prod.snd = l.content := by
  obtain ⟨qs,o⟩ := l
  have hended : (qs.flatMap fun q => [(TokenKind.string, q.text), (TokenKind.op, [','])]).flatMap Prod.snd =
      qs.flatMap fun q => q.text ++ [','] := by
    simp [List.flatMap_assoc]
  cases o <;> simp [spelling,NameList.content,hended]

namespace Display

variable [Resources] (x : Display)

theorem writtenIn_inside : writtenIn x.inside = x.listing.content := by
  have h := congrArg (List.flatMap Prod.snd) x.spelled
  rwa [flatMap_spelling,List.flatMap_map] at h

theorem isListed_inside (ht : t ∈ x.inside) : isListed t = true := by
  by_cases hblank : t.kind.isLogicallyBlank = true
  · simp [isListed,hblank]
  · have hmem : (t.kind, t.value) ∈ spelling x.listing := by
      rw [← x.spelled]
      exact List.mem_map_of_mem (by simpa [ht] using hblank)
    simp only [spelling,List.mem_append,List.mem_flatMap,List.mem_map,List.mem_cons,List.not_mem_nil,or_false,
      Prod.mk.injEq] at hmem
    rcases hmem with ⟨q,-,⟨hk,-⟩ | ⟨hk,hv⟩⟩ | ⟨q,-,hk,-⟩
    · simp [isListed,hk]
    · simp [isListed,Token.is,hk,hv]
    · simp [isListed,← hk]

theorem not_bracket_inside (ht : t ∈ x.inside) :
    openingBrackets.contains t.value = false ∧ closingBrackets.contains t.value = false := by
  have hlisted := x.isListed_inside ht
  have hcode : isCode t = true := List.all_eq_true.1 x.code t ht
  by_cases hk : t.kind = .op
  · have hv : t.value = ",".toList := by
      simpa [isListed,hk,TokenKind.isLogicallyBlank,Token.is] using hlisted
    rw [hv]
    decide
  · refine ⟨?_,?_⟩
    · exact Bool.eq_false_iff.2 fun h => hk (op_of_bracket hcode (.inl h))
    · exact Bool.eq_false_iff.2 fun h => hk (op_of_bracket hcode (.inr h))

theorem contains_comma (h : x.listing.ended ≠ []) : x.listing.content.contains ',' = true := by
  obtain ⟨q,qs,hq⟩ := List.exists_cons_of_ne_nil h
  simp [NameList.content,hq]

theorem evaluated (remarks : List (TokenOf .comment)) (hu : u.kind = .newline ∨ u.kind = .endMarker) :
    Passes (do evaluateExports x.listing.content; exportsEnd)
      (.before (remarks.map (·.token) ++ u :: us) false ds) (none,none) () (.before (u :: us) false ds)
      (some x.listing.exports,none) := by
  refine Passes.bind (Passes.modify (fun s => ?_) fun s hs => ?_) (exportsEnd_passes remarks hu)
  · split <;> rfl
  · obtain ⟨-,hfault⟩ := Prod.mk.inj hs
    simp [x.listing.evaluate_content,State.stated,hfault]

/-- Names without brackets end with their line, so the comments there are passed over with them. -/
theorem exportedContent_bare (h : x.listing.ended ≠ []) (hu : u.kind = .newline ∨ u.kind = .endMarker) :
    Passes (exportedContent false) (.before (x.inside ++ x.remarks.map (·.token) ++ u :: us) false ds)
      (none,none) () (.before (u :: us) false ds) (some x.listing.exports,none) := by
  have hremark : ∀ t ∈ x.remarks.map (·.token), t.kind.isLogicallyBlank = true := by
    simp only [List.mem_map,forall_exists_index,and_imp]
    rintro t c - rfl
    rw [c.isKind]
    rfl
  have hwritten : writtenIn (x.inside ++ x.remarks.map (·.token)) = x.listing.content := by
    rw [writtenIn_append,x.writtenIn_inside,writtenIn_blank hremark,List.append_nil]
  have hlisted : ∀ t ∈ x.inside ++ x.remarks.map (·.token), isListed t = true := by
    intro t ht
    rcases List.mem_append.1 ht with ht | ht
    · exact x.isListed_inside ht
    · simp [isListed,hremark t ht]
  have hloop : Loops (exportContentStep false) []
      (.before (x.inside ++ x.remarks.map (·.token) ++ u :: us) false ds) (some x.listing.content)
      (.before (u :: us) false ds) := by
    rw [← hwritten]
    exact exportContent_loops [] (fun t ht => ⟨by simp,hlisted t ht⟩) (.inr hu)
  refine Passes.bind (.of_keeps hloop.runs (exportContent_keeps false)) ?_
  simp only [x.contains_comma h]
  exact x.evaluated [] hu

theorem exportedContent_surrounded {c : Token} (hc : c.kind = .op)
    (hclosing : closingBrackets.contains c.value = true) (hu : u.kind = .newline ∨ u.kind = .endMarker) :
    Passes (exportedContent true) (.before (x.inside ++ c :: (x.remarks.map (·.token) ++ u :: us)) false ds)
      (none,none) () (.before (u :: us) false ds) (some x.listing.exports,none) := by
  have hloop : Loops (exportContentStep true) []
      (.before (x.inside ++ c :: (x.remarks.map (·.token) ++ u :: us)) false ds) (some x.listing.content)
      (.before (c :: (x.remarks.map (·.token) ++ u :: us)) false ds) := by
    rw [← x.writtenIn_inside]
    exact exportContent_loops [] (fun t ht => ⟨fun _ => (x.not_bracket_inside ht).2,x.isListed_inside ht⟩)
      (.inl ⟨rfl,hclosing⟩)
  refine Passes.bind (.of_keeps hloop.runs (exportContent_keeps true)) ?_
  have hconsume := @Runs.consume c (x.remarks.map (·.token) ++ u :: us) false ds _ hc (by simp)
  rw [freshAfter_code (by rw [hc]; rfl)] at hconsume
  exact Passes.bind (.of_keeps hconsume (Keeps.consume _)) (x.evaluated x.remarks hu)

theorem exportedNames_passes (hu : u.kind = .newline ∨ u.kind = .endMarker) :
    Passes exportedNames (.before (x.equals.token :: (x.behind ++ u :: us)) false ds) (none,none) ()
      (.before (u :: us) false ds) (some x.listing.exports,none) := by
  have hequals := kind_of_is x.equals.isOperator
  have hconsume := @Runs.consume x.equals.token (x.behind ++ u :: us) false ds _ hequals (by simp)
  rw [freshAfter_code (by rw [hequals]; rfl)] at hconsume
  refine Passes.bind (.of_keeps hconsume (Keeps.consume _)) ?_
  rcases x.enclosure.brackets with he | ⟨o,c,hopening,hclosing,⟨ho,hobracket⟩,hc,hcbracket⟩
  · have hended : x.listing.ended ≠ [] := x.commas (by rw [he]; rfl)
    obtain ⟨t,ts,hinside⟩ : ∃ t ts, x.inside = t :: ts := by
      apply List.exists_cons_of_ne_nil
      intro hnil
      have hspelled := x.spelled
      obtain ⟨q,qs,hq⟩ := List.exists_cons_of_ne_nil hended
      simp [hnil,spelling,hq] at hspelled
    have hfirst := (x.not_bracket_inside (t := t) (by simp [hinside])).1
    have hcontent : Passes (exportedContent false)
        (.before (x.inside ++ x.remarks.map (·.token) ++ u :: us) false ds) (none,none) ()
        (.before (u :: us) false ds) (some x.listing.exports,none) := x.exportedContent_bare hended hu
    simp only [behind,he,Enclosure.opening,Enclosure.closing,List.nil_append]
    -- The first token is asked whether it is a bracket, so it has to be in sight.
    rw [hinside] at hcontent ⊢
    refine Passes.bind (.of_keeps Runs.current Keeps.current) ?_
    simp only [hfirst,Bool.false_eq_true,if_false]
    exact hcontent
  · have hbehind : x.behind ++ u :: us = o :: (x.inside ++ c :: (x.remarks.map (·.token) ++ u :: us)) := by
      simp [behind,hopening,hclosing]
    rw [hbehind]
    refine Passes.bind (.of_keeps Runs.current Keeps.current) ?_
    have hopen := @Runs.consume o (x.inside ++ c :: (x.remarks.map (·.token) ++ u :: us)) false ds _ ho (by simp)
    rw [freshAfter_code (by rw [ho]; rfl)] at hopen
    simp only [hobracket,if_true]
    exact Passes.bind (.of_keeps hopen (Keeps.consume _)) (x.exportedContent_surrounded hc hcbracket hu)

theorem exportStatement_passes (hu : u.kind = .newline ∨ u.kind = .endMarker) :
    Passes exportStatement (.before (x.tokens ++ u :: us) fresh ds) (none,none) ()
      (.before (u :: us) false ds) (some x.listing.exports,none) := by
  have hkind := kind_of_is x.isName
  have hvalue := value_of_is x.isName
  have hconsume := @Runs.consume x.name (x.equals.token :: (x.behind ++ u :: us)) fresh ds _ hkind (by simp)
  rw [freshAfter_name hkind] at hconsume
  refine Passes.bind (.of_keeps Runs.current Keeps.current) ?_
  simp only [hvalue]
  refine Passes.bind (.of_keeps hconsume (Keeps.consume _)) (Passes.get_bind fun s _ hs => ?_)
  obtain ⟨hexports,hfault⟩ := Prod.mk.inj hs
  simp only [hexports,hfault]
  refine Passes.bind (.of_keeps Runs.current Keeps.current) ?_
  simp only [value_of_is x.equals.isOperator]
  exact x.exportedNames_passes hu

theorem moduleTurn_passes (hu : u.kind = .newline ∨ u.kind = .endMarker) :
    Passes (moduleTurn x.name) (.before (x.tokens ++ u :: us) fresh ds) (none,none) ([],true)
      (.before (u :: us) false ds) (some x.listing.exports,none) := by
  refine Passes.get_bind fun s _ _ => Passes.bind (.of_keeps (Runs.note _) (Keeps.note _)) ?_
  simp only [turnAt,value_of_is x.isName]
  exact Passes.bind (x.exportStatement_passes hu) Passes.pure

end Display

theorem Reaches.spot [Resources] {k : Nat} (h : Reaches ts k s) (hrest : s.rest = t :: us) :
    s.spot = .before (t :: us) s.fresh s.pending := by
  obtain ⟨n,hs⟩ := h.exists_at
  have ht : ts[n]? = some t := by rw [← hs.head?,hrest]; rfl
  rw [State.spot,hrest,hs.line,rowAt_of_getElem? ht]
  rfl

theorem isPublic_eq_isExported [Resources] {m : Module} {d : Definition} (h : Placed .module d) :
    d.isPublic m [] = d.isExported m := by
  obtain ⟨isClass,hkind,-⟩ := h
  rw [Definition.isPublic]
  cases isClass <;> simp only [hkind,Region.nested]

/-- A list of names is read as it is written. If it is the only statement about them, then the module exports
exactly these names, and a definition directly in it is public just if its name is one of them; but a single
name in brackets without a comma exports all of its parts. -/
theorem display_exported [Resources] (x : Display) {ts us : List Token} {u : Token} {s : State} (hs : Reaches ts 0 s)
    (hrest : s.rest = x.tokens ++ u :: us) (hu : u.kind = .newline ∨ u.kind = .endMarker) :
    (∃ s', moduleTurn x.name s = .ok ([], true) s' ∧ Reaches ts 1 s' ∧ s'.rest = u :: us ∧
      s'.exports = some x.listing.exports ∧ s'.exportFault = none) ∧
    ((∀ k s', Reaches ts k s' → k ≤ 1) → ∀ name source s₀ m s', State.ofTokens? ts = some s₀ →
      module name source s₀ = .ok m s' → m.exportFault = none ∧
        (x.listing.isLone = false → m.exports = some (.items (x.listing.names.map .text)) ∧
          ∀ d ∈ m.children, d.isPublic m [] = .ok (decide (d.name ∈ x.listing.names))) ∧
        (x.listing.isLone = true → ∃ n, x.listing.names = [n] ∧ m.exports = some (.single (.text n)) ∧
          ∀ d ∈ m.children, d.isPublic m [] = .ok (decide (d.name <:+: n)))) := by
  have hstart : s.stated = (none,none) := hs.stage
  obtain ⟨s₁,hturn,hspot,hstated⟩ := x.moduleTurn_passes hu s (hs.spot hrest) hstart
  have hhead : s.rest.head? = some x.name := by rw [hrest]; rfl
  have hone : statements x.name = 1 := by simp [statements,value_of_is x.isName]
  have hreach : Reaches ts 1 s₁ := by
    have h := hs.turns (Turns.single hhead hturn)
    rwa [hone] at h
  obtain ⟨hexports,hfault⟩ := Prod.mk.inj hstated
  refine ⟨⟨s₁,hturn,hreach,congrArg Spot.rest hspot,hexports,hfault⟩,?_⟩
  intro honce name source s₀ m s' hs₀ hm
  obtain ⟨j,s₂,hturns,hmodule⟩ := hreach.module_stated hs₀ hm
  have hj : j = 0 := by
    have := honce _ _ (hreach.turns hturns)
    omega
  rw [hturns.stated_eq hj,hstated] at hmodule
  obtain ⟨hmexports,hmfault⟩ := Prod.mk.inj hmodule
  have hpublic : ∀ d ∈ m.children, ∀ b, x.listing.exports.contains? d.name = some b → d.isPublic m [] = .ok b := by
    intro d hd b hb
    rw [isPublic_eq_isExported (module_placed hm d hd),Definition.isExported,hmexports]
    simp only [hb]
  refine ⟨hmfault,fun hlone => ?_,fun hlone => ?_⟩
  · refine ⟨hmexports.trans (congrArg some (x.listing.contains_several hlone []).1),fun d hd => ?_⟩
    exact hpublic d hd _ (x.listing.contains_several hlone d.name).2
  · obtain ⟨n,hnames,hsingle,-⟩ := x.listing.contains_lone hlone []
    refine ⟨n,hnames,hmexports.trans (congrArg some hsingle),fun d hd => ?_⟩
    obtain ⟨n',hnames',-,hcontains⟩ := x.listing.contains_lone hlone d.name
    obtain rfl : n' = n := by simpa [hnames] using hnames'.symm
    exact hpublic d hd _ hcontains

def tokenAt (row : Nat) (kind : TokenKind) (value : Text) : Token := ⟨kind, value, ⟨row, 0⟩, ⟨row, 0⟩, value⟩

def parenthesisAtFirst : Operator "(" := ⟨tokenAt 1 .op "(", by decide⟩

open Resources.Builtin

def remarked : Display where
  name := tokenAt 2 .name "__all__"
  equals := ⟨tokenAt 2 .op "=", by decide⟩
  enclosure := .square ⟨tokenAt 2 .op "[", by decide⟩ ⟨tokenAt 5 .op "]", by decide⟩
  inside :=
    [tokenAt 2 .comment "# names", tokenAt 2 .nl "\n", tokenAt 3 .string "'f'", tokenAt 3 .op ",",
      tokenAt 3 .nl "\n", tokenAt 4 .string "\"\"\"g\"\"\"", tokenAt 4 .op ",", tokenAt 4 .nl "\n"]
  listing :=
    { ended :=
        [.ofName "f" (by decide),
          { quote := '"', triple := true, pieces := [.plain 'g'], name := "g", isQuote := by decide,
            whole := by decide, closed := by decide, named := rfl }]
      last := none }
  remarks := [⟨tokenAt 5 .comment "# all", by decide, by decide⟩]
  isName := by decide
  code := by decide
  spelled := by decide
  commas := by simp [Enclosure.opening]

/-- The tokens behind the names: a listed function, and one whose name is only similar. -/
def behindRemarked : List Token :=
  [tokenAt 6 .name "def", tokenAt 6 .name "f", tokenAt 6 .op ":", tokenAt 6 .name "pass",
    tokenAt 6 .newline "\n", tokenAt 7 .name "def", tokenAt 7 .name "fo", tokenAt 7 .op ":",
    tokenAt 7 .name "pass", tokenAt 7 .newline "\n", tokenAt 8 .endMarker []]

def aroundRemarked : List Token :=
  tokenAt 1 .name "import" :: tokenAt 1 .name "os" :: tokenAt 1 .newline "\n" ::
    (remarked.tokens ++ tokenAt 5 .newline "\n" :: behindRemarked)

theorem display_exported_remarked :
    (∃ s s', Reaches aroundRemarked 0 s ∧
      s.rest = remarked.tokens ++ tokenAt 5 .newline "\n" :: behindRemarked ∧
      moduleTurn remarked.name s = .ok ([], true) s' ∧ s'.exports = some (.items [.text "f", .text "g"]) ∧
      s'.exportFault = none) ∧
    ∃ s₀ m s', State.ofTokens? aroundRemarked = some s₀ ∧ module "a.py" [] s₀ = .ok m s' ∧
      m.exportFault = none ∧ m.exports = some (.items [.text "f", .text "g"]) ∧
      m.children.map (·.name) = Text.literals ["f", "fo"] ∧
      ∀ d ∈ m.children, d.isPublic m [] = .ok (decide (d.name ∈ Text.literals ["f", "g"])) := by
  obtain ⟨s,hs,hrest⟩ : ∃ s, Reaches aroundRemarked 0 s ∧
      (s.rest == remarked.tokens ++ tokenAt 5 .newline "\n" :: behindRemarked) = true :=
    exists_reaches (n := 3) (by decide +kernel)
  rw [beq_iff_eq] at hrest
  obtain ⟨⟨s₁,hturn,-,-,hexports,hfault⟩,hmodule⟩ := display_exported remarked hs hrest (.inl rfl)
  have honce : ∀ k s', Reaches aroundRemarked k s' → k ≤ 1 := by
    intro k s' h
    have hcount : aroundRemarked.countP (·.value == exportName) = 1 := by decide
    exact hcount ▸ h.le_count
  have hread : readsTo aroundRemarked (module "a.py" []) (fun m _ =>
      m.children.map (·.name) == Text.literals ["f", "fo"]) = true := by decide +kernel
  obtain ⟨s₀,m,s',hs₀,hm,hnames⟩ := exists_of_readsTo hread
  obtain ⟨hmfault,hseveral,-⟩ := hmodule honce _ _ s₀ m s' hs₀ hm
  exact ⟨⟨s,s₁,hs,hrest,hturn,hexports,hfault⟩,
    s₀,m,s',hs₀,hm,hmfault,(hseveral rfl).1,beq_iff_eq.1 hnames,(hseveral rfl).2⟩

def loneName : Text := "__all__ = ['foo']\ndef fo(): pass\n"

/-- A list of a single name without a comma makes a function public that is not listed. -/
theorem lone_display_exports_part : ∃ m d, Module.ofText "a.py" loneName = .ok m ∧
    m.exports = some (.single (.text "foo")) ∧ d ∈ m.children ∧ d.name = "fo".toList ∧
    d.isPublic m [] = .ok true := by
  have hrun : ((Module.ofText "a.py" loneName).toOption.any fun m =>
      m.exports == some (.single (.text "foo")) &&
        m.children.any fun d => d.name == "fo".toList && (d.isPublic m []).toOption == some true) = true := by
    decide +kernel
  obtain ⟨m,hm,hrun⟩ := exists_of_any hrun
  simp only [Bool.and_eq_true,beq_iff_eq,List.any_eq_true] at hrun
  obtain ⟨hexports,d,hd,hname,hpublic⟩ := hrun
  exact ⟨m,d,hm,hexports,hd,hname,toOption_eq_some hpublic⟩

end DocLint.Outline
