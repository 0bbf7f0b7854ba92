import Mathlib.Data.List.Infix
import DocLint.Exports
import DocLint.Proofs.Token.Mark

/-!
Lists of quoted names. A literal is read up to its own closing quotes, whatever follows them, so literals
with commas between them are cut into the same literals again. Their value is the list of the names that
they stand for; a single literal without a comma is a text instead, and every part of it counts as a name.
-/

set_option autoImplicit false

namespace DocLint

namespace Text

theorem containsText_iff {sub t : Text} : containsText sub t = true ↔ sub <:+: t := by
  unfold containsText
  induction t with
  | nil => simp [cut?,List.infix_nil]
  | cons c cs ih =>
    rw [cut?,List.infix_cons_iff]
    split
    · rename_i h
      simp [List.isPrefixOf_iff_prefix.mp h]
    · rename_i h
      rw [List.isPrefixOf_iff_prefix] at h
      simp [h,ih]

theorem unifyNewlines_append {a b : Text} (h : b.head? ≠ some '\n') :
    unifyNewlines (a ++ b) = unifyNewlines a ++ unifyNewlines b := by
  fun_induction unifyNewlines a with
  | case1 => rfl
  | case2 cs ih => simp [unifyNewlines,ih]
  | case3 c cs hcs ih =>
    have hline : ∀ ds, c = '\r' → cs ++ b = '\n' :: ds → False := by
      intro ds hc heq
      cases cs with
      | nil => exact h (by rw [List.nil_append] at heq; rw [heq]; rfl)
      | cons d cs => exact hcs cs hc (by rw [(List.cons.inj heq).1])
    rw [List.cons_append,unifyNewlines.eq_3 _ _ hline,ih,List.cons_append]

theorem unifyNewlines_eq {t : Text} (h : '\r' ∉ t) : unifyNewlines t = t := by
  fun_induction unifyNewlines t with
  | case1 => rfl
  | case2 cs ih => simp at h
  | case3 c cs _ ih =>
    simp only [List.mem_cons,not_or] at h
    rw [if_neg (Ne.symm h.1),ih h.2]

theorem head?_unifyNewlines (t : Text) :
    (unifyNewlines t).head? = t.head?.map fun c => if c = '\r' then '\n' else c := by
  fun_cases unifyNewlines t <;> rfl

end Text

/-- What stands between the quotes of a literal: a character, or a backslash and the one behind it. -/
inductive Piece where
  | plain (c : Char)
  | escaped (c : Char)
  deriving DecidableEq, Repr

def Piece.text : Piece → Text
  | .plain c => [c]
  | .escaped c => ['\\', c]

def quoteWidth (triple : Bool) : Nat := if triple then 3 else 1

/-- A literal without letters before its quotes, and the text that it stands for. Its closing quotes are the
first ones of their width. -/
structure Quotation [Resources] where
  quote : Char
  triple : Bool
  pieces : List Piece
  name : Text
  isQuote : Lexeme.isQuote quote = true
  whole : .plain '\\' ∉ pieces
  closed : ¬ List.replicate (quoteWidth triple) (.plain quote) <:+:
    pieces ++ List.replicate (quoteWidth triple - 1) (.plain quote)
  named : Literal.decodeFrom 0 (Text.unifyNewlines (pieces.flatMap Piece.text)) = .ok name

namespace Quotation

def quotes [Resources] (q : Quotation) : Text := List.replicate (quoteWidth q.triple) q.quote

def body [Resources] (q : Quotation) : Text := q.pieces.flatMap Piece.text

def text [Resources] (q : Quotation) : Text := q.quotes ++ (q.body ++ q.quotes)

end Quotation

namespace Exports

variable {quote : Char} {pieces : List Piece} {rest : Text}

theorem ne_backslash_of_isQuote (h : Lexeme.isQuote quote = true) : quote ≠ '\\' := by
  rintro rfl
  revert h
  decide

theorem literalEnd_escaped (quote : Char) (triple : Bool) (c : Char) (cs : Text) :
    literalEnd quote triple ('\\' :: c :: cs) =
      (literalEnd quote triple cs).map fun (a, b) => ('\\' :: c :: a, b) := by
  rw [literalEnd]

theorem literalEnd_plain {triple : Bool} {c : Char} {cs : Text} (hc : c ≠ '\\')
    (h : c = quote → triple = true ∧ ∀ ds, cs ≠ quote :: quote :: ds) :
    literalEnd quote triple (c :: cs) = (literalEnd quote triple cs).map fun (a, b) => (c :: a, b) := by
  rw [literalEnd.eq_def]
  split
  · contradiction
  · simp_all
  · simp_all
  · rename_i c' cs' _ _ heq
    obtain ⟨rfl,rfl⟩ := List.cons.inj heq
    split
    · rename_i hq
      obtain ⟨rfl,hds⟩ := h hq
      rw [if_pos rfl]
      split
      · rw [if_neg]
        rintro ⟨rfl,rfl⟩
        exact hds _ rfl
      · rfl
    · rfl

theorem literalEnd_quote (hq : Lexeme.isQuote quote = true) :
    literalEnd quote false (quote :: rest) = some ([quote],rest) := by
  rw [literalEnd.eq_def]
  have hback := ne_backslash_of_isQuote hq
  split
  · contradiction
  · simp_all
  · simp_all
  · simp_all

theorem literalEnd_single (hq : Lexeme.isQuote quote = true) (hwhole : .plain '\\' ∉ pieces)
    (hclosed : .plain quote ∉ pieces) :
    literalEnd quote false (pieces.flatMap Piece.text ++ quote :: rest) =
      some (pieces.flatMap Piece.text ++ [quote],rest) := by
  induction pieces with
  | nil => exact literalEnd_quote hq
  | cons p ps ih =>
    have hps := ih (fun h => hwhole (by simp [h])) (fun h => hclosed (by simp [h]))
    cases p with
    | escaped c => simp [Piece.text,literalEnd_escaped,hps]
    | plain c =>
      have hne : c ≠ quote := by
        rintro rfl
        simp at hclosed
      have hc : c ≠ '\\' := fun h => hwhole (by simp [h])
      simp only [List.flatMap_cons,Piece.text,List.cons_append,List.nil_append]
      rw [literalEnd_plain hc (fun h => absurd h hne),hps]
      rfl

/-- Behind an unescaped quote there are not two more, as the three would end the literal. -/
theorem not_quotes_of_closed (hq : Lexeme.isQuote quote = true) {ps : List Piece}
    (h : ¬ List.replicate 3 (.plain quote) <:+: .plain quote :: ps ++ List.replicate 2 (.plain quote))
    (ds : Text) : ps.flatMap Piece.text ++ quote :: quote :: quote :: rest ≠ quote :: quote :: ds := by
  have hback := ne_backslash_of_isQuote hq
  intro heq
  apply h
  apply List.IsPrefix.isInfix
  -- Where the pieces end, the closing quotes take their place.
  match ps with
  | [] => simp [List.replicate_succ]
  | .escaped c :: ps => simp [Piece.text,Ne.symm hback] at heq
  | [.plain c] =>
    simp only [List.flatMap_cons,Piece.text,List.cons_append,List.cons.injEq] at heq
    simp [List.replicate_succ,heq.1]
  | .plain c :: .escaped d :: ps => simp [Piece.text,Ne.symm hback] at heq
  | .plain c :: .plain d :: ps =>
    simp only [List.flatMap_cons,Piece.text,List.cons_append,List.cons.injEq,List.nil_append] at heq
    simp [List.replicate_succ,heq.1,heq.2.1]

theorem literalEnd_triple (hq : Lexeme.isQuote quote = true) (hwhole : .plain '\\' ∉ pieces)
    (hclosed : ¬ List.replicate 3 (.plain quote) <:+: pieces ++ List.replicate 2 (.plain quote)) :
    literalEnd quote true (pieces.flatMap Piece.text ++ quote :: quote :: quote :: rest) =
      some (pieces.flatMap Piece.text ++ [quote, quote, quote],rest) := by
  have hback := ne_backslash_of_isQuote hq
  induction pieces with
  | nil => simp [literalEnd,hback]
  | cons p ps ih =>
    have hps := ih (fun h => hwhole (by simp [h]))
      (fun h => hclosed (h.trans (List.suffix_cons _ _).isInfix))
    cases p with
    | escaped c => simp [Piece.text,literalEnd_escaped,hps]
    | plain c =>
      have hc : c ≠ '\\' := fun h => hwhole (by simp [h])
      simp only [List.flatMap_cons,Piece.text,List.cons_append,List.nil_append]
      rw [literalEnd_plain hc,hps]
      · rfl
      · rintro rfl
        exact ⟨rfl,not_quotes_of_closed hq hclosed⟩

end Exports

namespace Quotation

open Exports

/-- A single quote is not taken for three of them, unless the text behind the literal is opened by one. -/
theorem tripleQuote_single {quote : Char} {body rest : Text} (hbody : body.head? ≠ some quote)
    (hrest : rest.head? ≠ some quote) : Lexeme.tripleQuote? (quote :: (body ++ quote :: rest)) = none := by
  cases body with
  | nil =>
    cases rest with
    | nil => rfl
    | cons d ds =>
      have hd : quote ≠ d := by simpa [eq_comm] using hrest
      simp [Lexeme.tripleQuote?,hd]
  | cons c cs =>
    have hc : quote ≠ c := by simpa [eq_comm] using hbody
    cases cs <;> simp [Lexeme.tripleQuote?,hc]

variable [Resources] (q : Quotation) {rest : Text}

theorem quote_not_mem (h : q.triple = false) : .plain q.quote ∉ q.pieces := by
  have hclosed := q.closed
  simpa [h,quoteWidth,List.singleton_infix_iff] using hclosed

theorem literalEnd_body : literalEnd q.quote q.triple (q.body ++ (q.quotes ++ rest)) =
    some (q.body ++ q.quotes,rest) := by
  cases htriple : q.triple with
  | false =>
    simpa [body,quotes,htriple,quoteWidth] using
      literalEnd_single q.isQuote q.whole (q.quote_not_mem htriple)
  | true =>
    have hclosed := q.closed
    rw [htriple] at hclosed
    simpa [body,quotes,htriple,quoteWidth,List.replicate_succ] using
      literalEnd_triple q.isQuote q.whole hclosed

theorem body_head (h : q.triple = false) : q.body.head? ≠ some q.quote := by
  have hclosed := q.quote_not_mem h
  have hback := ne_backslash_of_isQuote q.isQuote
  unfold body
  match hp : q.pieces with
  | [] => simp
  | .escaped c :: ps => simp [Piece.text,Ne.symm hback]
  | .plain c :: ps =>
    intro heq
    obtain rfl : c = q.quote := by simpa [Piece.text] using heq
    simp [hp] at hclosed

theorem quotes_single (h : q.triple = false) : q.quotes = [q.quote] := by simp [quotes,h,quoteWidth]

theorem quotes_triple (h : q.triple = true) : q.quotes = [q.quote, q.quote, q.quote] := by
  simp [quotes,h,quoteWidth,List.replicate_succ]

theorem literal_append (hrest : rest.head? ≠ some q.quote) :
    literal? (q.text ++ rest) = some (q.text,rest) := by
  have hend := @literalEnd_body _ q rest
  cases htriple : q.triple with
  | false =>
    have hquotes := q.quotes_single htriple
    have htext : q.text ++ rest = [] ++ q.quote :: (q.body ++ q.quote :: rest) := by simp [text,hquotes]
    rw [htriple,hquotes,List.singleton_append] at hend
    rw [htext,literal?,Lexeme.literalMark_append (by decide) q.isQuote]
    simp only [tripleQuote_single (q.body_head htriple) hrest,hend]
    simp [text,hquotes]
  | true =>
    have hquotes := q.quotes_triple htriple
    have htext : q.text ++ rest = [] ++ q.quote :: (q.quote :: q.quote :: (q.body ++ (q.quotes ++ rest))) := by
      simp [text,hquotes]
    rw [htriple] at hend
    rw [htext,literal?,Lexeme.literalMark_append (by decide) q.isQuote]
    simp only [Lexeme.tripleQuote?,q.isQuote,and_self,if_true,hend]
    simp [text,hquotes]

theorem quote_cases : q.quote = '"' ∨ q.quote = '\'' := by simpa [Lexeme.isQuote] using q.isQuote

theorem text_eq_cons : ∃ cs, q.text = q.quote :: cs := by
  cases htriple : q.triple with
  | false => exact ⟨_,by rw [text,q.quotes_single htriple]; rfl⟩
  | true => exact ⟨_,by rw [text,q.quotes_triple htriple]; rfl⟩

theorem unifyNewlines_text :
    Text.unifyNewlines q.text = q.quotes ++ (Text.unifyNewlines q.body ++ q.quotes) := by
  have hline : ∀ cs, Text.unifyNewlines (q.quote :: cs) = q.quote :: Text.unifyNewlines cs := by
    intro cs
    obtain h | h := q.quote_cases <;> simp [h,Text.unifyNewlines]
  have hhead : q.quotes.head? ≠ some '\n' := by
    cases htriple : q.triple with
    | false => obtain h | h := q.quote_cases <;> simp [q.quotes_single htriple,h]
    | true => obtain h | h := q.quote_cases <;> simp [q.quotes_triple htriple,h]
  cases htriple : q.triple with
  | false =>
    rw [text,q.quotes_single htriple] at *
    simp only [List.singleton_append,hline,Text.unifyNewlines_append hhead,Text.unifyNewlines]
  | true =>
    rw [text,q.quotes_triple htriple] at *
    simp only [List.cons_append,List.nil_append,hline,Text.unifyNewlines_append hhead,Text.unifyNewlines]

theorem unquote_quotes {body : Text} (h : q.triple = false → body.head? ≠ some q.quote) :
    Literal.unquote (q.quotes ++ (body ++ q.quotes)) = body := by
  cases htriple : q.triple with
  | false =>
    have hnone : Lexeme.tripleQuote? (q.quote :: (body ++ [q.quote])) = none :=
      tripleQuote_single (h htriple) (by simp)
    simp [Literal.unquote,q.quotes_single htriple,hnone]
  | true => simp [Literal.unquote,q.quotes_triple htriple,Lexeme.tripleQuote?,q.isQuote]

theorem ofText_text : Literal.ofText? q.text =
    some ⟨false, false, false, Text.unifyNewlines q.body⟩ := by
  have hbody : q.triple = false → (Text.unifyNewlines q.body).head? ≠ some q.quote := by
    intro htriple hhead
    rw [Text.head?_unifyNewlines,Option.map_eq_some_iff] at hhead
    obtain ⟨c,hc,heq⟩ := hhead
    have hne : c ≠ q.quote := fun h => q.body_head htriple (h ▸ hc)
    split at heq
    · obtain h | h := q.quote_cases <;> simp [h] at heq
    · exact hne heq
  obtain ⟨cs,hcs⟩ := q.text_eq_cons
  have hmark : Lexeme.literalMark? q.text = some ([],q.text) := by
    have h : Lexeme.literalMark? ([] ++ q.quote :: cs) = some ([],q.quote :: cs) :=
      Lexeme.literalMark_append (by decide) q.isQuote
    rwa [List.nil_append,← hcs] at h
  simp [Literal.ofText?,hmark,unifyNewlines_text,unquote_quotes q hbody]

theorem literalValue_text : literalValue q.text = .ok (.text q.name) := by
  have hnamed := q.named
  simp [literalValue,ofText_text,Literal.value,Literal.decodeText,body,hnamed,Except.map]

theorem decodeFrom_plain {t : Text} (h : '\\' ∉ t) : Literal.decodeFrom 0 t = .ok t := by
  induction t with
  | nil => rfl
  | cons c cs ih =>
    simp only [List.mem_cons,not_or] at h
    simp [Literal.decodeFrom,Ne.symm h.1,ih h.2,Except.map]

/-- A name between single quotes stands for itself, if it holds nothing that needs an escape. -/
def ofName (name : Text) (h : '\'' ∉ name ∧ '\\' ∉ name ∧ '\r' ∉ name) : Quotation where
  quote := '\''
  triple := false
  pieces := name.map .plain
  name := name
  isQuote := by decide
  whole := by simpa using h.2.1
  closed := by simpa [quoteWidth,List.singleton_infix_iff] using h.1
  named := by
    have hbody : (name.map Piece.plain).flatMap Piece.text = name := by
      induction name with
      | nil => rfl
      | cons c cs ih => simp_all [Piece.text]
    rw [hbody,Text.unifyNewlines_eq h.2.2,decodeFrom_plain h.2.1]

end Quotation

/-! ### Lists -/

structure NameList [Resources] where
  ended : List Quotation
  last : Option Quotation

namespace NameList

open Exports

variable [Resources] (l : NameList)

def content (l : NameList) : Text :=
  l.ended.flatMap (fun q => q.text ++ [',']) ++ (l.last.map Quotation.text).getD []

def names (l : NameList) : List Text := (l.ended ++ l.last.toList).map Quotation.name

def isLone (l : NameList) : Bool := l.ended.isEmpty && l.last.isSome

def exports (l : NameList) : Exports :=
  match l.ended, l.last with
  | [], some q => .single (.text q.name)
  | _, _ => .items (l.names.map .text)

theorem groups_text (q : Quotation) {rest : Text} {fuel : Nat} {g : List Text} {gs : List (List Text)}
    (hrest : rest.head? ≠ some q.quote) (h : groups fuel rest = some (g :: gs)) :
    groups (fuel + 1) (q.text ++ rest) = some ((q.text :: g) :: gs) := by
  obtain ⟨cs,hcs⟩ := q.text_eq_cons
  have hcomma : q.quote ≠ ',' := by obtain h | h := q.quote_cases <;> simp [h]
  have hcut := q.literal_append hrest
  rw [hcs,List.cons_append] at hcut ⊢
  simp [groups,hcomma,hcut,h]

theorem groups_last (o : Option Quotation) {fuel : Nat}
    (h : ((o.map Quotation.text).getD []).length < fuel) :
    groups fuel ((o.map Quotation.text).getD []) = some [o.toList.map Quotation.text] := by
  match fuel,o with
  | 0,_ => omega
  | fuel + 1,none => rfl
  | fuel + 1,some q =>
    obtain ⟨cs,hcs⟩ := q.text_eq_cons
    simp only [Option.map_some,Option.getD_some,hcs,List.length_cons] at h
    have hnil : groups fuel [] = some [[]] := by
      match fuel with
      | 0 => omega
      | _ + 1 => rfl
    simpa using groups_text q (by simp) hnil

theorem groups_content (o : Option Quotation) (qs : List Quotation) {fuel : Nat}
    (h : (content ⟨qs, o⟩).length < fuel) :
    groups fuel (content ⟨qs, o⟩) = some (qs.map (fun q => [q.text]) ++ [o.toList.map Quotation.text]) := by
  -- Each literal takes one step and its comma another, and both are at least a character long.
  induction qs generalizing fuel with
  | nil => simpa [content] using groups_last o (by simpa [content] using h)
  | cons q qs ih =>
    have hcontent : content ⟨q :: qs, o⟩ = q.text ++ ',' :: content ⟨qs, o⟩ := by simp [content]
    obtain ⟨cs,hcs⟩ := q.text_eq_cons
    rw [hcontent] at h ⊢
    simp only [hcs,List.length_append,List.length_cons] at h
    match fuel with
    | 0 | 1 => omega
    | fuel + 2 =>
      have hquote : (',' :: content ⟨qs, o⟩).head? ≠ some q.quote := by
        obtain h | h := q.quote_cases <;> simp [h]
      have hmore := @ih fuel (by omega)
      exact groups_text q hquote (by simp [groups,hmore])

theorem groupValue_text (q : Quotation) : groupValue [q.text] = .ok (.text q.name) := by
  simp [groupValue,q.literalValue_text,joined,bind,Except.bind,pure,Except.pure]

theorem mapM_groupValue (qs : List Quotation) :
    (qs.map fun q => [q.text]).mapM groupValue = .ok (qs.map fun q => .text q.name) := by
  induction qs with
  | nil => rfl
  | cons q qs ih =>
    rw [List.map_cons,List.mapM_cons,groupValue_text,ih]
    rfl

theorem ofGroups_several (g last : List Text) (gs : List (List Text)) :
    ofGroups (g :: gs ++ [last]) =
      ((if last = [] then g :: gs else g :: gs ++ [last]).mapM groupValue).map .items := by
  have hlast : (g :: gs ++ [last]).getLast? = some last := List.getLast?_concat
  have hinit : (g :: gs ++ [last]).dropLast = g :: gs := List.dropLast_concat
  rw [ofGroups]
  · simp only [hlast,hinit,Option.some.injEq]
  · simp
  · simp

/-- Literals and commas are evaluated to the names, or to a text if there is no comma. -/
theorem evaluate_content : evaluate l.content = .ok l.exports := by
  obtain ⟨qs,o⟩ := l
  rw [evaluate,groups_content o qs (Nat.lt_succ_self _)]
  match qs,o with
  | [],none => rfl
  | [],some q => simp [ofGroups,groupValue_text,exports,Except.map]
  | q :: qs,none =>
    simp only [List.map_cons,Option.toList_none,List.map_nil,ofGroups_several,if_true]
    rw [← List.map_cons (f := fun q : Quotation => [q.text]),mapM_groupValue]
    simp [exports,names,Except.map]
  | q :: qs,some p =>
    have hmap := mapM_groupValue (q :: qs ++ [p])
    simp only [List.map_append,List.map_cons,List.map_nil] at hmap
    simp only [List.map_cons,Option.toList_some,List.map_nil,ofGroups_several,reduceCtorEq,if_false,hmap]
    simp [exports,names,Except.map]

theorem contains_several (h : l.isLone = false) (n : Text) :
    l.exports = .items (l.names.map .text) ∧ l.exports.contains? n = some (decide (n ∈ l.names)) := by
  have heq : l.exports = .items (l.names.map .text) := by
    obtain ⟨qs,o⟩ := l
    match qs,o,h with
    | [],none,_ => rfl
    | _ :: _,_,_ => rfl
  refine ⟨heq,?_⟩
  simp [heq,contains?,List.contains_eq_mem]

theorem contains_lone (h : l.isLone = true) (n : Text) :
    ∃ t, l.names = [t] ∧ l.exports = .single (.text t) ∧
      l.exports.contains? n = some (decide (n <:+: t)) := by
  obtain ⟨qs,o⟩ := l
  match qs,o,h with
  | [],some q,_ =>
    refine ⟨q.name,rfl,rfl,congrArg some ?_⟩
    rw [Bool.eq_iff_iff,decide_eq_true_iff,Text.containsText_iff]

end NameList

end DocLint
