import DocLint.Proofs.Answer
import DocLint.Proofs.Outline.Display
import DocLint.Proofs.Outline.Leads
import DocLint.Resources.Builtin

/-!
Functions with an annotated result. The reader takes the first colon behind the parameters for the end
of the header. A colon in the annotation is therefore mistaken for it, and the body is taken for the
function's own only if a comment stands right behind that colon.
-/

set_option autoImplicit false

namespace DocLint.Outline

variable {ts us : List Token} {fresh : Bool} {ds : List Decorator} {kind : DefinitionKind}

/-! ### Bodies -/

def leadingDocstring (ts : List Token) : Option Docstring := (ts.dropWhile isFiller).head?.bind docstringOf

def behindDocstring (ts : List Token) : List Token :=
  if (leadingDocstring ts).isSome then (ts.dropWhile isFiller).tail else ts.dropWhile isFiller

structure Indented where
  first : Token
  rest : List Token
  opens : first.kind ≠ .indent
  closes : ((first :: rest).any (·.kind == .dedent)) = true

def Indented.tokens (b : Indented) : List Token := b.first :: b.rest

/-- The header of a function, with what stands between its parameters and its colon. -/
structure Annotated where
  keyword : Token
  name : TokenOf .name
  opening : Operator "("
  inside : List Token
  closing : Operator ")"
  result : List Token
  colon : Operator ":"
  isKeyword : keyword.is .name "def" = true
  balanced : isBalanced 0 inside = true
  inner : (result.all (·.kind.isInner)) = true

namespace Annotated

def signature (h : Annotated) : List Token :=
  h.opening.token :: h.inside ++ h.closing.token :: (h.result ++ [h.colon.token])

def tokens (h : Annotated) : List Token := h.keyword :: h.name.token :: h.signature

/-- The tokens between the first colon behind the parameters and the end of the header. -/
def behindColon (h : Annotated) : List Token :=
  ((h.result ++ [h.colon.token]).dropWhile (!·.is .op ":")).tail

/-- Whether the first colon behind the parameters is that of the header, or a comment follows it. -/
def keepsBody (h : Annotated) : Bool := h.behindColon.head?.all (·.kind == .comment)

end Annotated

/-- A definition is read from `s` whose body is what is read from `s₁` on. -/
structure Takes [Resources] (kind : DefinitionKind) (d : Nat → List Definition → Definition) (s s₁ : State) : Prop where
  read : ∀ found s₂, definitions (.within kind) false s₁ = .ok found s₂ →
    ∃ s', definition kind s = .ok (d (s₂.line - 1) found) s' ∧ s'.spot = s₂.spot
  refused : ∀ e s₂, definitions (.within kind) false s₁ = .error e s₂ → definition kind s = .error e s₂

/-! ### Reading a body -/

theorem leadingDocstring_cons {x : Token} {xs : List Token} (h : ts.dropWhile isFiller = x :: xs) :
    leadingDocstring ts = docstringOf x ∧
      behindDocstring ts = if x.kind = .string then xs else x :: xs := by
  have hdoc : leadingDocstring ts = docstringOf x := by
    rw [leadingDocstring,h]
    rfl
  refine ⟨hdoc,?_⟩
  rw [behindDocstring,hdoc,h,docstringOf]
  split <;> rfl

theorem dropWhile_filler {x : Token} {xs : List Token} (h : ts.dropWhile isFiller = x :: xs) :
    isFiller x = false := by
  have hx := List.head?_dropWhile_not isFiller ts
  rw [h] at hx
  simpa using hx

theorem exists_statement {z : Token} (hz : z ∈ ts) (hf : isFiller z = false) (hk : z.kind ≠ .string) :
    ∃ x xs, ts.dropWhile isFiller = x :: xs ∧ (x.kind = .string → xs ≠ []) := by
  have hmem : z ∈ ts.dropWhile isFiller := by
    rw [← List.takeWhile_append_dropWhile (p := isFiller) (l := ts)] at hz
    rcases List.mem_append.mp hz with hz | hz
    · rw [List.all_eq_true.mp List.all_takeWhile z hz] at hf
      cases hf
    · exact hz
  cases hd : ts.dropWhile isFiller with
  | nil =>
    rw [hd] at hmem
    cases hmem
  | cons x xs =>
    refine ⟨x,xs,rfl,?_⟩
    rintro hx rfl
    rw [hd,List.mem_singleton] at hmem
    exact hk (hmem ▸ hx)

theorem behindDocstring_ne_nil {z : Token} (hz : z ∈ ts) (hf : isFiller z = false) (hk : z.kind ≠ .string) :
    behindDocstring ts ≠ [] := by
  obtain ⟨x,xs,hd,hxs⟩ := exists_statement hz hf hk
  rw [(leadingDocstring_cons hd).2]
  split
  · rename_i hx
    exact hxs hx
  · simp

theorem length_behindDocstring_le : (behindDocstring ts).length ≤ ts.length := by
  have hle := (List.dropWhile_suffix (l := ts) isFiller).length_le
  unfold behindDocstring
  split
  · rw [List.length_tail]
    omega
  · exact hle

namespace Indented

variable (b : Indented)

theorem exists_dedent : ∃ t ∈ b.tokens, isFiller t = false ∧ t.kind ≠ .string := by
  obtain ⟨t,ht,hk⟩ := List.any_eq_true.mp b.closes
  rw [beq_iff_eq] at hk
  exact ⟨t,ht,by simp [isFiller,hk],by simp [hk]⟩

theorem docstring_runs : Runs docstring (.before b.tokens true ds) (leadingDocstring b.tokens)
    (.before (behindDocstring b.tokens) (leadingDocstring b.tokens).isNone ds) := by
  obtain ⟨t,ht,hf,hk⟩ := b.exists_dedent
  obtain ⟨x,xs,hd,hxs⟩ := exists_statement ht hf hk
  obtain ⟨hdoc,hbehind⟩ := leadingDocstring_cons hd
  have hfillers : ∀ y ∈ b.tokens.takeWhile isFiller, isFiller y = true :=
    List.all_eq_true.mp List.all_takeWhile
  have hfresh (fs : List Token) (hfs : ∀ y ∈ fs, isFiller y = true) : fs.foldl freshAfter true = true := by
    induction fs with
    | nil => rfl
    | cons y fs ih =>
      rw [List.foldl_cons,freshAfter_filler (hfs y (by simp))]
      exact ih fun z hz => hfs z (by simp [hz])
  have hsplit : b.tokens = b.tokens.takeWhile isFiller ++ (x :: xs) := by
    rw [← hd,List.takeWhile_append_dropWhile]
  have hstatement := @Loops.docstring_head x xs true ds (dropWhile_filler hd) hxs
  rw [hdoc,hbehind]
  nth_rewrite 1 [hsplit]
  refine (Loops.docstring_fillers hfillers (by simp) ?_).docstring
  rw [hfresh _ hfillers]
  by_cases hx : x.kind = .string
  · simpa only [docstringOf,hx,if_true,Option.isNone_some] using hstatement
  · simpa only [docstringOf,hx,if_false,Option.isNone_none] using hstatement

end Indented

/-! ### Headers -/

namespace Annotated

variable (h : Annotated)

theorem exists_colon : ∃ pre c, h.result ++ [h.colon.token] = pre ++ c :: h.behindColon ∧
    (∀ x ∈ pre, x.is .op ":" = false) ∧ c.is .op ":" = true := by
  have hsplit : (h.result ++ [h.colon.token]).takeWhile (!·.is .op ":") ++
      (h.result ++ [h.colon.token]).dropWhile (!·.is .op ":") = h.result ++ [h.colon.token] :=
    List.takeWhile_append_dropWhile
  have hpre := List.all_eq_true.mp
    (List.all_takeWhile (l := h.result ++ [h.colon.token]) (p := (!·.is .op ":")))
  cases hd : (h.result ++ [h.colon.token]).dropWhile (!·.is .op ":") with
  | nil =>
    rw [hd,List.append_nil] at hsplit
    have hcolon := hpre h.colon.token (by rw [hsplit]; simp)
    rw [h.colon.isOperator] at hcolon
    cases hcolon
  | cons c post =>
    have hc := List.head?_dropWhile_not (!·.is .op ":") (h.result ++ [h.colon.token])
    rw [hd] at hc
    refine ⟨_,c,?_,fun x hx => by simpa using hpre x hx,by simpa using hc⟩
    rw [behindColon,hd,List.tail_cons,← hd,hsplit]

theorem headerEnd_runs (hus : us ≠ []) :
    Runs headerEnd (.before (h.signature ++ us) fresh ds) () (.before (h.behindColon ++ us) false ds) := by
  obtain ⟨pre,c,hsplit,hpre,hc⟩ := h.exists_colon
  have htokens : h.signature ++ us =
      h.opening.token :: h.inside ++ h.closing.token :: (pre ++ c :: (h.behindColon ++ us)) := by
    rw [signature,hsplit]
    simp
  rw [htokens]
  exact headerEnd_signed h.opening.isOperator h.balanced h.closing.isOperator hpre hc (by simp [hus])

theorem keyword_kind : h.keyword.kind = .name := kind_of_is h.isKeyword

/-- What stands behind a colon of the annotation goes on to the colon of the header. -/
theorem colon_mem_behindColon (hne : h.behindColon ≠ []) : h.colon.token ∈ h.behindColon := by
  have hsuffix : h.behindColon <:+ h.result ++ [h.colon.token] :=
    (List.tail_suffix _).trans (List.dropWhile_suffix _)
  obtain hnil | ⟨es,heq,-⟩ := List.suffix_concat_iff.mp hsuffix
  · exact absurd hnil hne
  · simp [heq]

theorem inner_behindColon : ∀ x ∈ h.behindColon, x.kind.isInner = true := by
  intro x hx
  have hsuffix : h.behindColon <:+ h.result ++ [h.colon.token] :=
    (List.tail_suffix _).trans (List.dropWhile_suffix _)
  rcases List.mem_append.mp (hsuffix.subset hx) with hx | hx
  · exact List.all_eq_true.mp h.inner x hx
  · rw [List.mem_singleton.mp hx,kind_of_is h.colon.isOperator]
    rfl

/-! ### Definitions -/

variable (o : Opening) (b : Indented)

theorem kept_head (hk : h.keepsBody = true) : ∃ y ms, h.behindColon ++ o.fillers = y :: ms ∧
    (y.kind = .newline ∨ y.kind = .comment) := by
  cases hc : h.behindColon with
  | nil => exact o.head_fillers
  | cons y ys =>
    rw [keepsBody,hc,List.head?_cons,Option.all_some,beq_iff_eq] at hk
    exact ⟨y,_,rfl,.inr hk⟩

theorem not_indent (x : Token) (hx : x ∈ h.behindColon ++ o.fillers) : x.kind ≠ .indent := by
  intro hk
  rcases List.mem_append.mp hx with hx | hx
  · have hinner := h.inner_behindColon x hx
    simp [hk,TokenKind.isInner] at hinner
  · have hf := o.isFiller_fillers x hx
    simp [isFiller,hk] at hf

def outline (kind : DefinitionKind) (ds : List Decorator) (stop : Nat) (children : List Definition) :
    Definition where
  kind := kind
  name := h.name.token.value
  start := h.keyword.start.row
  stop := stop
  decorators := ds
  docstring := leadingDocstring b.tokens
  skipped := skippedIn ((h.behindColon ++ o.fillers).takeWhile isFiller)
  children := children

theorem definition_kept [Resources] (hk : h.keepsBody = true) :
    Resumes (definition kind) (.before (h.tokens ++ (o.tokens ++ b.tokens)) fresh ds)
      (bodyOf (fun r => definitions r false) kind h.name.token.value (h.outline o b kind ds))
      (.before (behindDocstring b.tokens) (leadingDocstring b.tokens).isNone []) := by
  obtain ⟨y,ms,hy,hkind⟩ := h.kept_head o hk
  have htokens : h.behindColon ++ (o.tokens ++ b.tokens) = y :: ms ++ o.indent.token :: b.tokens := by
    rw [← hy,Opening.tokens]
    simp
  have hhead (f : Bool) : Runs headerEnd (.before (h.signature ++ (o.tokens ++ b.tokens)) f ds) ()
      (.before (y :: ms ++ o.indent.token :: b.tokens) false ds) := by
    rw [← htokens]
    exact h.headerEnd_runs (by simp [Indented.tokens])
  have hnot := h.not_indent o
  rw [hy] at hnot
  unfold outline
  rw [hy]
  exact definitionWith_body h.keyword_kind (by simp [signature]) hhead hkind hnot o.indent.isKind
    ⟨_,_,rfl,b.opens⟩ b.docstring_runs

theorem not_newline (x : Token) (hx : x ∈ h.behindColon) : x.kind ≠ .newline := by
  intro hk
  have hinner := h.inner_behindColon x hx
  simp [hk,TokenKind.isInner] at hinner

/-- What stands behind a colon of the annotation, seen as a body on the line of its header. -/
theorem exists_lineBody (hne : h.behindColon ≠ []) : ∃ l : LineBody,
    h.behindColon ++ o.tokens = h.behindColon.takeWhile isFiller ++
      (l.tokens ++ (o.blanks.map (·.token) ++ [o.indent.token])) ∧
    leadingDocstring h.behindColon = docstringOf l.first ∧
    rowOf (behindDocstring h.behindColon) = rowOf l.undocumented := by
  have hcolon := h.colon_mem_behindColon hne
  have hop := kind_of_is h.colon.isOperator
  have hfiller : isFiller h.colon.token = false := by simp [isFiller,hop]
  have hstring : h.colon.token.kind ≠ .string := by simp [hop]
  obtain ⟨x,xs,hd,hxs⟩ := exists_statement hcolon hfiller hstring
  obtain ⟨hdoc,hbehind⟩ := leadingDocstring_cons hd
  have hsplit : h.behindColon.takeWhile isFiller ++ (x :: xs) = h.behindColon := by
    rw [← hd,List.takeWhile_append_dropWhile]
  have hinside : ((xs ++ (o.remark.map (·.token)).toList).any (·.kind == .newline)) = false := by
    rw [List.any_eq_false]
    intro y hy hk
    rcases List.mem_append.mp hy with hy | hy
    · exact h.not_newline y (by rw [← hsplit]; simp [hy]) (beq_iff_eq.mp hk)
    · obtain ⟨c,-,rfl⟩ := Option.map_eq_some_iff.mp (Option.mem_toList.mp hy)
      rw [c.isKind] at hk
      cases hk
  refine ⟨⟨x,_,o.newline,dropWhile_filler hd,hinside⟩,?_,hdoc,?_⟩
  · nth_rewrite 1 [← hsplit]
    simp [Opening.tokens,Opening.fillers,LineBody.tokens]
  · rw [← @rowOf_append _ ((o.remark.map (·.token)).toList ++ [o.newline.token])
      (behindDocstring_ne_nil hcolon hfiller hstring),hbehind]
    unfold LineBody.undocumented LineBody.tokens
    split <;> simp

/-- With another colon in the annotation, what stands behind it is the body, up to the end of the line. -/
theorem definition_mistaken [Resources] (hk : h.keepsBody = false) :
    Runs (definition kind) (.before (h.tokens ++ (o.tokens ++ b.tokens)) fresh ds)
      { kind, name := h.name.token.value, start := h.keyword.start.row
        stop := rowOf (behindDocstring h.behindColon), decorators := ds
        docstring := leadingDocstring h.behindColon, skipped := [], children := [] }
      (.before (o.blanks.map (·.token) ++ o.indent.token :: b.tokens) true []) := by
  have hne : h.behindColon ≠ [] := by
    intro hnil
    rw [keepsBody,hnil] at hk
    cases hk
  obtain ⟨l,htokens,hdoc,hrow⟩ := h.exists_lineBody o hne
  have hall : h.behindColon ++ (o.tokens ++ b.tokens) = h.behindColon.takeWhile isFiller ++
      (l.tokens ++ (o.blanks.map (·.token) ++ o.indent.token :: b.tokens)) := by
    rw [← List.append_assoc,htokens]
    simp
  rw [hrow,hdoc]
  refine definitionWith_rest l h.keyword_kind (by simp [signature]) (by simp) (fun y hy => ?_)
    (fun y hy => ?_) (fun f => hall ▸ h.headerEnd_runs (by simp [Indented.tokens]))
  · have hf := List.all_eq_true.mp List.all_takeWhile y hy
    have hn := h.not_newline y ((List.takeWhile_prefix _).subset hy)
    unfold isFiller at hf
    cases hk : y.kind <;> simp_all [TokenKind.isLogicallyBlank]
  · have hfirst : h.behindColon.head? = some y := by
      rw [← List.takeWhile_append_dropWhile (p := isFiller) (l := h.behindColon),List.head?_append,
        Option.mem_def.mp hy]
      rfl
    rw [keepsBody,hfirst,Option.all_some,beq_eq_false_iff_ne] at hk
    exact hk

end Annotated

/-! ### The body of an annotated function -/

theorem takes_of_bodyOf [Resources] {s s₁ : State} {name : Text} {d : Nat → List Definition → Definition}
    (h : definition kind s = bodyOf (fun r => definitions r false) kind name d s₁) :
    Takes kind d s s₁ where
  read := by
    intro found s₂ h₂
    have hend : Runs (do note (.nestedDone name)
                         let stop := (← line) - 1
                         note (.definitionDone kind name (← current?))
                         return d stop found) s₂.spot (d (s₂.line - 1) found) s₂.spot :=
      Runs.bind (Runs.note _) (Runs.bind Runs.line (Runs.bind Runs.current? (Runs.bind (Runs.note _)
        Runs.pure)))
    obtain ⟨s',h',hs'⟩ := hend s₂ rfl
    refine ⟨s',?_,hs'⟩
    rw [h,bodyOf,bind_of_ok _ h₂]
    exact h'
  refused := by
    intro e s₂ h₂
    rw [h,bodyOf]
    change EStateM.bind _ _ _ = _
    simp only [EStateM.bind,h₂]

theorem Takes.length_le [Resources] {s s₁ s' : State} {d : Nat → List Definition → Definition} {v : Definition}
    (h : Takes kind d s s₁) (hs₁ : s₁.spot = .before ts fresh ds) (hts : ts ≠ [])
    (hv : definition kind s = .ok v s') : s'.rest.length ≤ ts.length := by
  cases ts with
  | nil => exact absurd rfl hts
  | cons t ts =>
    cases hd : definitions (.within kind) false s₁ with
    | ok found s₂ =>
      obtain ⟨s'',h₁,hspot⟩ := h.read found s₂ hd
      obtain ⟨-,rfl⟩ := EStateM.Result.ok.inj (h₁.symm.trans hv)
      obtain ⟨zs,n,hat,-⟩ := Leads.exists_at hs₁
      obtain ⟨m,hm,hat₂,-⟩ := definitions_moves.ok hat hd
      have hrest : s₁.rest = t :: ts := (Spot.mk.inj hs₁).1
      rw [← hrest,(Spot.mk.inj hspot).1,hat.rest,hat₂.rest,List.length_drop,List.length_drop]
      omega
    | error e s₂ =>
      rw [h.refused e s₂ hd] at hv
      cases hv

/-- The indented body of a function is taken for its own if and only if the first colon behind the
parameters is that of the header, or is followed by a comment. Otherwise the rest of the line is taken for
the body, and what is indented is left over. -/
theorem body_taken_iff [Resources] (h : Annotated) (o : Opening) (b : Indented) (kind : DefinitionKind) (fresh : Bool)
    (ds : List Decorator) (s : State)
    (hs : s.spot = .before (h.tokens ++ (o.tokens ++ b.tokens)) fresh ds) :
    ((∃ s₁ : State, s₁.spot = .before (behindDocstring b.tokens) (leadingDocstring b.tokens).isNone [] ∧
      Takes kind (h.outline o b kind ds) s s₁) ↔ h.keepsBody = true) ∧
    (h.keepsBody = false → ∃ s', definition kind s = .ok
        { kind, name := h.name.token.value, start := h.keyword.start.row
          stop := rowOf (behindDocstring h.behindColon), decorators := ds
          docstring := leadingDocstring h.behindColon, skipped := [], children := [] } s' ∧
      s'.spot = .before (o.blanks.map (·.token) ++ o.indent.token :: b.tokens) true []) := by
  refine ⟨⟨fun ⟨s₁,hs₁,htakes⟩ => ?_,fun hk => ?_⟩,fun hk => h.definition_mistaken o b hk s hs⟩
  · by_contra hk
    obtain ⟨s',h',hs'⟩ := h.definition_mistaken o b (Bool.eq_false_iff.mpr hk) s hs
    obtain ⟨t,ht,hf,hstring⟩ := b.exists_dedent
    have hlong := htakes.length_le hs₁ (behindDocstring_ne_nil ht hf hstring) h'
    have hshort := @length_behindDocstring_le b.tokens
    rw [(Spot.mk.inj hs').1,List.length_append,List.length_cons] at hlong
    omega
  · obtain ⟨s₁,hs₁,heq⟩ := h.definition_kept o b hk s hs
    exact ⟨s₁,hs₁,takes_of_bodyOf heq⟩

def mapped : Annotated where
  keyword := tokenAt 1 .name "def"
  name := ⟨tokenAt 1 .name "f", rfl, by decide⟩
  opening := parenthesisAtFirst
  inside := [tokenAt 1 .name "x", tokenAt 1 .op ":", tokenAt 1 .op "(", tokenAt 1 .op ")"]
  closing := ⟨tokenAt 1 .op ")", by decide⟩
  result := [tokenAt 1 .op "->", tokenAt 1 .name "dict", tokenAt 1 .op "[", tokenAt 1 .name "int",
    tokenAt 1 .op ",", tokenAt 1 .name "str", tokenAt 1 .op "]"]
  colon := ⟨tokenAt 1 .op ":", by decide⟩
  isKeyword := by decide
  balanced := by decide
  inner := by decide

def mappedOpening : Opening where
  remark := none
  newline := ⟨tokenAt 1 .newline "\n", rfl, by decide⟩
  blanks := []
  indent := ⟨tokenAt 2 .indent "    ", rfl, by decide⟩

def mappedBody : Indented where
  first := tokenAt 2 .string "\"\"\"Doc.\"\"\""
  rest := [tokenAt 2 .newline "\n", tokenAt 3 .name "def", tokenAt 3 .name "g", tokenAt 3 .op "(",
    tokenAt 3 .op ")", tokenAt 3 .op ":", tokenAt 3 .name "pass", tokenAt 3 .newline "\n",
    tokenAt 4 .dedent [], tokenAt 4 .endMarker []]
  opens := by decide
  closes := by decide

open Resources.Builtin

theorem body_taken_iff_mapped : ∃ s s₁ found s₂ s',
    State.ofTokens? (mapped.tokens ++ (mappedOpening.tokens ++ mappedBody.tokens)) = some s ∧
    s₁.spot = .before (behindDocstring mappedBody.tokens) false [] ∧
    definitions (.within .function) false s₁ = .ok found s₂ ∧
    definition .function s =
      .ok (mapped.outline mappedOpening mappedBody .function [] (s₂.line - 1) found) s' ∧
    found.map (·.name) = [("g" : Text)] ∧ s₂.line - 1 = 3 := by
  have hread : readsTo (mapped.tokens ++ (mappedOpening.tokens ++ mappedBody.tokens)) (definition .function)
      (fun d _ => d.children.map (·.name) == [("g" : Text)] && d.stop == 3) = true := by decide +kernel
  obtain ⟨s,d,s',hs,hd,htest⟩ := exists_of_readsTo hread
  have hspot : s.spot =
      .before (mapped.tokens ++ (mappedOpening.tokens ++ mappedBody.tokens)) true [] := by
    cases hs
    rfl
  obtain ⟨s₁,hs₁,htakes⟩ :=
    (body_taken_iff mapped mappedOpening mappedBody .function true [] s hspot).1.mpr (by decide)
  cases hfound : definitions (.within .function) false s₁ with
  | error e s₂ =>
    rw [htakes.refused e s₂ hfound] at hd
    cases hd
  | ok found s₂ =>
    obtain ⟨s'',hread,-⟩ := htakes.read found s₂ hfound
    obtain ⟨rfl,-⟩ := EStateM.Result.ok.inj (hread.symm.trans hd)
    rw [Bool.and_eq_true,beq_iff_eq,beq_iff_eq] at htest
    exact ⟨s,s₁,found,s₂,s'',hs,hs₁,hfound,hread,htest⟩

def mistakenColon : Text := "def f() -> a[1:2]:\n    \"\"\"Doc.\"\"\"\n    def g(): pass\n"

/-- With a colon in its annotation, a function loses its docstring and its body. -/
theorem mistakenColon_loses_body : ∃ m d, Module.ofText "a.py" mistakenColon = .ok m ∧ d ∈ m.children ∧
    d.name = "f".toList ∧ d.docstring = none ∧ d.children.length = 0 ∧ d.stop = 1 ∧
    m.children.length = 2 := by
  have hrun : ((Module.ofText "a.py" mistakenColon).toOption.any fun m =>
      m.children.length == 2 && m.children.any fun d => d.name == "f".toList && d.docstring == none &&
        d.children.length == 0 && d.stop == 1) = true := by
    decide +kernel
  obtain ⟨m,hm,hrun⟩ := exists_of_any hrun
  simp only [Bool.and_eq_true,beq_iff_eq,List.any_eq_true] at hrun
  obtain ⟨hlength,d,hd,⟨⟨hname,hdoc⟩,hchildren⟩,hstop⟩ := hrun
  exact ⟨m,d,hm,hd,hname,hdoc,hchildren,hstop,hlength⟩

end DocLint.Outline
