import DocLint.Proofs.Token.Folding
import DocLint.Proofs.Token.Located

/-!
The token stream of a folded text is the folded token stream of the text: the kinds and the places of its
tokens are the same.
-/

set_option autoImplicit false

namespace DocLint

def Token.folded (t : Token) : Token := { t with value := t.value.folded, line := t.line.folded }

variable {t : Text} {c : Char}

theorem Text.folded_reverse : t.folded.reverse = Text.folded t.reverse := List.map_reverse.symm

theorem Text.folded_getLast? : t.folded.getLast? = t.getLast?.map foldMark := List.getLast?_map

theorem Text.stripRightOf_folded {set : Text} (hset : ∀ c, set.contains (foldMark c) = set.contains c) :
    Text.stripRightOf set t.folded = Text.folded (Text.stripRightOf set t) := by
  rw [stripRightOf,stripRightOf,folded_reverse,folded_dropWhile hset,folded_reverse]

theorem Text.strip_folded : t.folded.strip = t.strip.folded := by
  rw [strip,stripRight,stripLeft,folded_dropWhile isSpace_foldMark,folded_reverse,
    folded_dropWhile isSpace_foldMark,folded_reverse,strip,stripRight,stripLeft]

theorem Text.isSuffixOf_folded {w : Text} (hw : ∀ x ∈ w, x ∉ plainLetters) :
    w.isSuffixOf t.folded = w.isSuffixOf t := by
  rw [List.isSuffixOf,folded_reverse,isPrefixOf_folded fun x hx => hw x (List.mem_reverse.mp hx)]
  rfl

theorem Text.lines_folded : t.folded.lines = t.lines.map Text.folded := by
  induction t with
  | nil => rfl
  | cons c cs ih =>
    simp (disch := decide) only [folded_cons,lines,foldMark_eq_iff,ih]
    split
    · rfl
    · cases lines cs <;> rfl

namespace Scan

def OpenString.folded (o : OpenString) : OpenString :=
  { o with text := o.text.folded, lines := o.lines.folded }

def State.folded (s : State) : State := { s with openString := s.openString.map OpenString.folded }

def LineEnd.folded : LineEnd → LineEnd
  | .go s => .go s.folded
  | .finish s => .finish s.folded
  | .stop fault => .stop fault

/-- A string under way was opened by a quote. -/
def State.Quotes (s : State) : Prop := ∀ o, s.openString = some o → Lexeme.isQuote o.quote = true

def LineEnd.Quotes (e : LineEnd) : Prop := ∀ s, e = .go s → s.Quotes

variable {row col : Nat} {text : Text} {s : State}

theorem indentWidth_folded (blanks : Text) : indentWidth blanks.folded = indentWidth blanks := by
  have hstep (w : Nat) (c : Char) : (if foldMark c = ' ' then w + 1 else if foldMark c = '\t' then
      (w / 8 + 1) * 8 else 0) = if c = ' ' then w + 1 else if c = '\t' then (w / 8 + 1) * 8 else 0 := by
    simp (disch := decide) only [foldMark_eq_iff]
  simp only [indentWidth,Text.folded,List.foldl_map,hstep]

theorem classify_folded (depth : Int) (lexeme : Text) : classify depth lexeme.folded = classify depth lexeme := by
  cases lexeme with
  | nil => rfl
  | cons initial cs =>
    have hopens := foldMark_congr (p := fun c => "([\x7b".toList.contains c) (by decide) (by decide) initial
    have hcloses := foldMark_congr (p := fun c => ")]\x7d".toList.contains c) (by decide) (by decide) initial
    have hpoint : Text.folded (initial :: cs) = ".".toList ↔ initial :: cs = ".".toList :=
      Text.folded_eq_iff (by simp [plainLetters])
    have hpoints : Text.folded (initial :: cs) = "...".toList ↔ initial :: cs = "...".toList :=
      Text.folded_eq_iff (by simp [plainLetters])
    rw [Text.folded_cons] at hpoint hpoints
    have hmark := Lexeme.literalMark?_folds (initial :: cs)
    rw [Text.folded_cons] at hmark
    simp (disch := decide) only [Text.folded_cons,classify,Text.isAsciiDigit_foldMark,foldMark_eq_iff,ne_eq,
      hpoint,hpoints,hmark,Text.isIdentifierStart_foldMark,hopens,hcloses]
    cases hm : Lexeme.literalMark? (initial :: cs) with
    | none => rfl
    | some p =>
      obtain ⟨mark,quoted⟩ := p
      obtain ⟨-,-,q,rest,rfl,hq⟩ := Lexeme.literalMark_eq hm
      have hx := Lexeme.not_mem_of_isQuote hq
      have htriple : Text.folded rest = [q, q] ↔ rest = [q, q] := Text.folded_eq_iff (by simp [hx])
      have hlast : (foldMark initial :: Text.folded cs).getLast? = some '\n' ↔
          (initial :: cs).getLast? = some '\n' := by
        rw [← Text.folded_cons,Text.folded_getLast?]
        cases (initial :: cs).getLast? with
        | none => simp
        | some d => simp [foldMark_eq_iff (x := '\n') (by decide)]
      simp only [Option.map_some,Text.folded_cons,foldMark_of_not_mem hx,htriple,hlast]

/-- What opens a string is a quote. -/
theorem isQuote_of_classify {depth : Int} {lexeme : Text} {q : Char} {e : Effect} (h : classify depth lexeme = e)
    (he : e = .openTriple q ∨ e = .openSingle q) : Lexeme.isQuote q = true := by
  obtain ⟨mark,q',rest,hm,he'⟩ := literalMark_of_classify h (.inr ⟨q,he⟩)
  obtain ⟨-,-,_,_,heq,hq⟩ := Lexeme.literalMark_eq hm
  obtain ⟨rfl,-⟩ := List.cons.inj heq
  rcases he with rfl | rfl <;> simp at he' <;> exact he' ▸ hq

theorem closeIndents_folded (width row col : Nat) (text : Text) (indents : List Nat) :
    closeIndents width row col text.folded indents =
      ((closeIndents width row col text indents).1.map Token.folded,
        (closeIndents width row col text indents).2) := by
  induction indents with
  | nil => rfl
  | cons i outer ih =>
    unfold closeIndents
    split
    · split
      · rw [ih]
        rfl
      · rfl
    · rfl

/-- The tokens of the rest of a line. A string that it leaves open was opened by a quote. -/
theorem lineTokens_folded (row : Nat) (text : Text) (fuel : Nat) (s : State) (col : Nat) (rest : Text)
    (hs : s.Quotes) :
    lineTokens row text.folded fuel s.folded col rest.folded =
      ((lineTokens row text fuel s col rest).1.map Token.folded,
        (lineTokens row text fuel s col rest).2.folded) ∧
      (lineTokens row text fuel s col rest).2.Quotes := by
  induction fuel generalizing s col rest with
  | zero => exact ⟨rfl,hs⟩
  | succ fuel ih =>
    have hcons {value : Text} {kind : TokenKind} {first : Nat} {p p' : List Token × State}
        (hp : p' = (p.1.map Token.folded, p.2.folded) ∧ p.2.Quotes) :
        ((⟨kind, value.folded, ⟨row, first⟩, ⟨row, first + value.length⟩, text.folded⟩ : Token) :: p'.1, p'.2) =
          (((⟨kind, value, ⟨row, first⟩, ⟨row, first + value.length⟩, text⟩ : Token) :: p.1).map Token.folded, p.2.folded) ∧
          p.2.Quotes := by
      obtain ⟨rfl,hq⟩ := hp
      exact ⟨rfl,hq⟩
    have hopened {start : Position} {body : Text} {q : Char} {triple must : Bool}
        (hq : Lexeme.isQuote q = true) :
        ({ s with openString := some ⟨start, body, text, q, triple⟩, mustContinue := must } : State).Quotes := by
      rintro o ⟨⟩
      exact hq
    cases rest with
    | nil => exact ⟨rfl,hs⟩
    | cons c cs =>
      have hblanks := Text.folded_takeWhile (t := c :: cs) Lexeme.isBlank_foldMark
      have hbody := Text.folded_dropWhile (t := c :: cs) Lexeme.isBlank_foldMark
      rw [Text.folded_cons] at hblanks hbody
      simp only [lineTokens,Text.folded_cons,hblanks,hbody,Text.folded_length]
      generalize (c :: cs).takeWhile Lexeme.isBlank = blanks
      generalize (c :: cs).dropWhile Lexeme.isBlank = body
      simp only [Lexeme.next_folds body]
      by_cases hempty : body = []
      · subst hempty
        exact ⟨rfl,hs⟩
      · have hempty' : Text.folded body ≠ [] := by
          intro h
          exact hempty ((Text.folded_eq_iff (by simp)).mp h)
        simp only [List.isEmpty_eq_false_iff.mpr hempty,List.isEmpty_eq_false_iff.mpr hempty',
          Bool.false_eq_true,if_false]
        cases hnext : Lexeme.next body with
        | none => exact @hcons [c] _ _ _ _ (ih s (col + 1) cs hs)
        | some p =>
          obtain ⟨lexeme,after⟩ := p
          have hdepth : s.folded.depth = s.depth := rfl
          simp only [Option.map_some,classify_folded,Text.folded_length,hdepth]
          cases hclass : classify s.depth lexeme with
          | token kind => exact hcons (ih s _ after hs)
          | bracket change => exact hcons (ih { s with depth := s.depth + change } _ after hs)
          | joinLines => exact ih { s with continued := true } _ after hs
          | openTriple quote =>
            have hq := isQuote_of_classify hclass (.inl rfl)
            simp only [Lexeme.stringEnd_folds hq true after]
            cases hend : Lexeme.stringEnd quote true after with
            | none => exact ⟨rfl,hopened hq⟩
            | some p =>
              simp only [Option.map_some,← Text.folded_append,Text.folded_length]
              exact hcons (ih s _ p.2 hs)
          | openSingle quote => exact ⟨rfl,hopened (isQuote_of_classify hclass (.inr rfl))⟩

/-! ### Line by line -/

/-- What holds of a line and of the folded one. -/
def FoldsTo (p p' : List Token × LineEnd) : Prop :=
  p' = (p.1.map Token.folded, p.2.folded) ∧ p.2.Quotes

theorem FoldsTo.go {ts ts' : List Token} {p p' : List Token × State} (hts : ts' = ts.map Token.folded)
    (hp : p' = (p.1.map Token.folded, p.2.folded) ∧ p.2.Quotes) :
    FoldsTo (ts ++ p.1, .go p.2) (ts' ++ p'.1, .go p'.2) := by
  obtain ⟨rfl,hq⟩ := hp
  subst hts
  refine ⟨by simp [LineEnd.folded],?_⟩
  rintro _ ⟨⟩
  exact hq

theorem statementLine_folded (hs : s.Quotes) :
    FoldsTo (statementLine s row text) (statementLine s.folded row text.folded) := by
  have hblanks := Text.folded_takeWhile (t := text) Lexeme.isBlank_foldMark
  have hbody := Text.folded_dropWhile (t := text) Lexeme.isBlank_foldMark
  unfold statementLine
  simp only [hblanks,hbody,Text.folded_length,indentWidth_folded]
  cases text.dropWhile Lexeme.isBlank with
  | nil => exact ⟨rfl,by rintro _ ⟨⟩⟩
  | cons c cs =>
    simp (disch := decide) only [Text.folded_cons,foldMark_eq_iff]
    by_cases hc : c = '#' ∨ c = '\r' ∨ c = '\n'
    · have hremark : (if c = '#' then Text.stripRightOf "\r\n" (foldMark c :: Text.folded cs) else []) =
          Text.folded (if c = '#' then Text.stripRightOf "\r\n" (c :: cs) else []) := by
        have hset := foldMark_congr (p := fun c => "\r\n".toList.contains c) (by decide) (by decide)
        rw [← Text.folded_cons,Text.stripRightOf_folded hset]
        split <;> rfl
      simp only [hc,if_true,hremark,Text.folded_length,Text.folded_drop]
      refine ⟨?_,?_⟩
      · split <;> simp [Token.folded,LineEnd.folded]
      · rintro _ ⟨⟩
        exact hs
    · have hindents : s.folded.indents = s.indents := rfl
      simp only [hc,if_false,closeIndents_folded,hindents]
      generalize closeIndents (indentWidth _) row _ text _ = found
      obtain ⟨dedents,indents,fault⟩ := found
      generalize (text.takeWhile Lexeme.isBlank) = blanks
      have hindent : (if indentWidth blanks > s.indents.headD 0 then
            [(⟨.indent, Text.folded blanks, ⟨row, 0⟩, ⟨row, blanks.length⟩, text.folded⟩ : Token)] else []) =
          (if indentWidth blanks > s.indents.headD 0 then
            [(⟨.indent, blanks, ⟨row, 0⟩, ⟨row, blanks.length⟩, text⟩ : Token)] else []).map Token.folded := by
        split <;> rfl
      simp only [hindent]
      cases fault with
      | some fault => exact ⟨by simp [LineEnd.folded],by rintro _ ⟨⟩⟩
      | none =>
        exact FoldsTo.go List.map_append.symm
          (lineTokens_folded row text ((c :: cs).length + 1) { s with indents } blanks.length (c :: cs) hs)

theorem stringLine_folded (s : State) (row : Nat) (text : Text) {o : OpenString}
    (ho : Lexeme.isQuote o.quote = true) :
    stringLine s.folded o.folded row text.folded =
      ((stringLine s o row text).1.map Token.folded, (stringLine s o row text).2.folded) ∧
      (stringLine s o row text).2.Quotes := by
  unfold stringLine
  have hquote : o.folded.quote = o.quote := rfl
  have htriple : o.folded.triple = o.triple := rfl
  simp only [hquote,htriple,Lexeme.stringEnd_folds ho o.triple text]
  cases hend : Lexeme.stringEnd o.quote o.triple text with
  | none =>
    have hmust : s.folded.mustContinue = s.mustContinue := rfl
    simp (disch := simp [plainLetters]) only [Option.map_none,hmust,Text.isSuffixOf_folded]
    split
    · refine ⟨?_,?_⟩
      · simp [Token.folded,OpenString.folded,State.folded]
      · rintro o ⟨⟩
    · refine ⟨?_,?_⟩
      · simp [OpenString.folded,State.folded]
      · rintro o ⟨⟩
        exact ho
  | some p =>
    obtain ⟨ending,after⟩ := p
    obtain ⟨hline,hquotes⟩ := lineTokens_folded row text (after.length + 1)
      { s with openString := none, mustContinue := false } ending.length after (by rintro o ⟨⟩)
    simp only [Option.map_some,Text.folded_length]
    refine ⟨?_,hquotes⟩
    rw [show ({ s.folded with openString := none, mustContinue := false } : State) =
      State.folded { s with openString := none, mustContinue := false } from rfl,hline]
    simp [Token.folded,OpenString.folded]

theorem line_folded (row : Nat) (text : Text) (hs : s.Quotes) : FoldsTo (line s row text) (line s.folded row text.folded) := by
  unfold line
  cases ho : s.openString with
  | some o =>
    have ho' : s.folded.openString = some o.folded := by simp [State.folded,ho]
    obtain ⟨h,hquotes⟩ := stringLine_folded s row text (hs o ho)
    simp only [ho',h]
    refine ⟨rfl,?_⟩
    rintro _ ⟨⟩
    exact hquotes
  | none =>
    have ho' : s.folded.openString = none := by simp [State.folded,ho]
    have hdepth : s.folded.depth = s.depth := rfl
    have hcontinued : s.folded.continued = s.continued := rfl
    simp only [ho',hdepth,hcontinued]
    split
    · exact statementLine_folded hs
    · have hq : ({ s with openString := none, continued := false } : State).Quotes := by rintro o ⟨⟩
      rw [Text.folded_length]
      exact @FoldsTo.go [] [] _ _ rfl (lineTokens_folded row text (text.length + 1) _ 0 text hq)

theorem closing_folded (s : State) (row : Nat) (last : Text) :
    closing s.folded row last.folded = (closing s row last).map Token.folded := by
  have hstrip : "#".toList.isPrefixOf (Text.strip last.folded) = "#".toList.isPrefixOf (Text.strip last) := by
    rw [Text.strip_folded,Text.isPrefixOf_folded (by simp [plainLetters])]
  unfold closing
  simp only [hstrip,Text.folded_getLast?,Text.folded_length]
  cases last.getLast? with
  | none => simp [Token.folded,State.folded]
  | some c =>
    simp (disch := decide) only [Option.map_some,ne_eq,foldMark_eq_iff]
    split <;> simp [Token.folded,State.folded]

theorem linesFrom_folded (row : Nat) (last : Text) (ls : List Text) (hs : s.Quotes) :
    linesFrom s.folded row last.folded (ls.map Text.folded) =
      ⟨(linesFrom s row last ls).tokens.map Token.folded, (linesFrom s row last ls).fault⟩ := by
  induction ls generalizing s row last with
  | nil =>
    have hopen : s.folded.openString.isSome = s.openString.isSome := by simp [State.folded]
    have hdepth : s.folded.depth = s.depth := rfl
    have hcontinued : s.folded.continued = s.continued := rfl
    simp only [List.map_nil,linesFrom,hopen,hdepth,hcontinued,closing_folded]
    split
    · rfl
    · split <;> rfl
  | cons text rest ih =>
    obtain ⟨hline,hquotes⟩ := line_folded row text hs
    simp only [List.map_cons,linesFrom,hline]
    cases hcase : line s row text with
    | mk ts e =>
      rw [hcase] at hquotes
      cases e with
      | go s' =>
        simp only [LineEnd.folded,ih (row + 1) text (hquotes s' rfl),List.map_append]
      | finish s' => simp only [LineEnd.folded,closing_folded,List.map_append]
      | stop fault => rfl

/-- Folding a text folds its tokens. -/
theorem ofText_folded (source : Text) :
    Scan.ofText source.folded = ⟨(Scan.ofText source).tokens.map Token.folded, (Scan.ofText source).fault⟩ := by
  rw [ofText,Text.lines_folded]
  exact linesFrom_folded (s := {}) 1 [] source.lines (by rintro o ⟨⟩)

end Scan

end DocLint
