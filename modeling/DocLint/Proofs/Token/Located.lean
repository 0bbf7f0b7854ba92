import DocLint.Proofs.Token.Lexeme
import DocLint.Token.Scan

/-!
Tokens stand where they say: the text in front of the end of a token is the text in front of its
beginning and then its value. A string that is still open holds all the text since it began. Tokens do
not overlap: each one begins where the one before it ends, or later.
-/

set_option autoImplicit false

namespace DocLint

def textBefore (lines : List Text) (p : Position) : Text :=
  (lines.take (p.row - 1)).flatten ++ (lines.getD (p.row - 1) []).take p.col

structure LineAt (lines : List Text) (row : Nat) (text : Text) : Prop where
  pos : 0 < row
  line : lines[row - 1]? = some text

namespace LineAt

variable {lines : List Text} {row col : Nat} {text a b : Text}

theorem textBefore_eq (h : LineAt lines row text) (col : Nat) :
    textBefore lines ⟨row, col⟩ = (lines.take (row - 1)).flatten ++ text.take col := by
  simp [textBefore,h.line]

theorem textBefore_add (h : LineAt lines row text) (hd : text.drop col = a ++ b) :
    textBefore lines ⟨row, col + a.length⟩ = textBefore lines ⟨row, col⟩ ++ a := by
  rw [h.textBefore_eq,h.textBefore_eq,List.take_add,hd,List.take_left,List.append_assoc]

theorem textBefore_end (h : LineAt lines row text) (col : Nat) :
    textBefore lines ⟨row, text.length⟩ = textBefore lines ⟨row, col⟩ ++ text.drop col := by
  rw [h.textBefore_eq,h.textBefore_eq,List.append_assoc,List.take_append_drop,List.take_length]

theorem textBefore_succ (h : LineAt lines row text) :
    textBefore lines ⟨row + 1, 0⟩ = textBefore lines ⟨row, text.length⟩ := by
  have htake : lines.take row = lines.take (row - 1) ++ [text] := by
    obtain ⟨n,rfl⟩ := Nat.exists_eq_succ_of_ne_zero (Nat.pos_iff_ne_zero.mp h.pos)
    rw [List.take_add_one,show lines[n]? = some text from h.line]
    rfl
  rw [h.textBefore_eq,List.take_length]
  simp [textBefore,htake]

end LineAt

/-- One position is not behind another one. -/
def Position.le (p q : Position) : Prop := p.row < q.row ∨ p.row = q.row ∧ p.col ≤ q.col

theorem Position.le_refl (p : Position) : p.le p := .inr ⟨rfl,Nat.le_refl _⟩

theorem Position.le.trans {p q r : Position} (h : p.le q) (h' : q.le r) : p.le r := by
  unfold Position.le at *
  omega

/-- A token that stands where it says. A string has quotes and ends behind the beginning of a line. -/
structure Located (lines : List Text) (t : Token) : Prop where
  text : textBefore lines t.stop = textBefore lines t.start ++ t.value
  forward : t.start.le t.stop
  quoted : t.kind = .string → Lexeme.IsQuoted t.value
  closed : t.kind = .string →
    ∃ text, LineAt lines t.stop.row text ∧ 0 < t.stop.col ∧ t.stop.col ≤ text.length

/-- Tokens between two positions, each of which stands where it says, and none before the end of the one
in front of it. -/
def Laid (lines : List Text) (lo hi : Position) : List Token → Prop
  | [] => lo.le hi
  | t :: ts => lo.le t.start ∧ Located lines t ∧ Laid lines t.stop hi ts

namespace Laid

variable {lines : List Text} {lo mid hi : Position} {ts us : List Token}

theorem append (h : Laid lines lo mid ts) (h' : Laid lines mid hi us) : Laid lines lo hi (ts ++ us) := by
  induction ts generalizing lo with
  | nil =>
    cases us with
    | nil => exact Position.le.trans h h'
    | cons u us => exact ⟨Position.le.trans h h'.1,h'.2⟩
  | cons t ts ih => exact ⟨h.1,h.2.1,ih h.2.2⟩

theorem lower (h : Laid lines lo hi ts) {lo' : Position} (hlo : lo'.le lo) : Laid lines lo' hi ts :=
  @append lines lo' lo hi [] ts hlo h

theorem single {t : Token} (h : Located lines t) : Laid lines t.start t.stop [t] :=
  ⟨Position.le_refl _,h,Position.le_refl _⟩

/-- Empty tokens at one position. -/
theorem constant {p : Position} (h : ∀ t ∈ ts, t.start = p ∧ t.stop = p ∧ t.value = [] ∧ t.kind ≠ .string) :
    Laid lines p p ts := by
  induction ts with
  | nil => exact p.le_refl
  | cons t ts ih =>
    obtain ⟨⟨rfl,hstop,hvalue,hkind⟩,hts⟩ := List.forall_mem_cons.mp h
    refine ⟨Position.le_refl _,⟨?_,?_,fun h => absurd h hkind,fun h => absurd h hkind⟩,?_⟩
    · rw [hstop,hvalue,List.append_nil]
    · rw [hstop]
      exact Position.le_refl _
    · rw [hstop]
      exact ih hts

theorem located (h : Laid lines lo hi ts) : ∀ t ∈ ts, Located lines t := by
  induction ts generalizing lo with
  | nil => simp
  | cons t ts ih => exact List.forall_mem_cons.mpr ⟨h.2.1,ih h.2.2⟩

theorem bounds (h : Laid lines lo hi ts) : ∀ t ∈ ts, lo.le t.start := by
  induction ts generalizing lo with
  | nil => simp
  | cons t ts ih =>
    refine List.forall_mem_cons.mpr ⟨h.1,fun u hu => ?_⟩
    exact (h.1.trans h.2.1.forward).trans (ih h.2.2 u hu)

theorem pairwise (h : Laid lines lo hi ts) : ts.Pairwise fun t u => t.stop.le u.start := by
  induction ts generalizing lo with
  | nil => exact List.Pairwise.nil
  | cons t ts ih => exact List.pairwise_cons.mpr ⟨h.2.2.bounds,ih h.2.2⟩

end Laid

namespace Scan

variable {lines : List Text} {row col : Nat} {text rest : Text} {s : State}

/-- A string that is open before a line began on an earlier one. -/
structure Begun (lines : List Text) (row : Nat) (o : OpenString) : Prop where
  text : textBefore lines ⟨row, 0⟩ = textBefore lines o.start ++ o.text
  quoted : Lexeme.IsQuoted o.text
  earlier : o.start.row < row

def Holding (lines : List Text) (row : Nat) (s : State) : Prop :=
  ∀ o, s.openString = some o → Begun lines row o

/-- Where the next token may begin, before the line `row` and behind the line `last`. -/
def State.limit (s : State) (row : Nat) (last : Text) : Position :=
  match s.openString with
  | some o => o.start
  | none => if last = [] then ⟨row, 0⟩ else ⟨row - 1, last.length⟩

theorem State.limit_behind (hs : s.openString = none) (hcol : col ≤ text.length) :
    Position.le ⟨row, col⟩ (s.limit (row + 1) text) := by
  unfold State.limit
  rw [hs]
  dsimp only
  split
  · exact .inl (Nat.lt_succ_self row)
  · exact .inr ⟨rfl,hcol⟩

/-- What holds behind a line whose tokens are given. -/
def LaidBehind (lines : List Text) (lo : Position) (row : Nat) (text : Text) (ts : List Token) : LineEnd → Prop
  | .go s => Laid lines lo (s.limit (row + 1) text) ts ∧ Holding lines (row + 1) s
  | .finish s => ts = [] ∧ s.openString = none
  | .stop _ => ∃ hi, Laid lines lo hi ts

theorem LaidBehind.lower {lo lo' : Position} {ts : List Token} {e : LineEnd}
    (h : LaidBehind lines lo row text ts e) (hlo : lo'.le lo) : LaidBehind lines lo' row text ts e := by
  cases e with
  | go s => exact ⟨h.1.lower hlo,h.2⟩
  | finish s => exact h
  | stop fault =>
    obtain ⟨hi,h⟩ := h
    exact ⟨hi,h.lower hlo⟩

theorem holding_of_none (hs : s.openString = none) : Holding lines row s := by
  intro o ho
  rw [hs] at ho
  cases ho

/-- What is a string, or opens one, begins with a mark and the quote. -/
theorem literalMark_of_classify {depth : Int} {lexeme : Text} {e : Effect} (h : classify depth lexeme = e)
    (he : e = .token .string ∨ ∃ q, e = .openTriple q ∨ e = .openSingle q) :
    ∃ mark q rest, Lexeme.literalMark? lexeme = some (mark, q :: rest) ∧
      (e = .token .string ∨ e = .openTriple q ∨ e = .openSingle q) := by
  unfold classify at h
  split at h
  · simp [← h] at he
  · split at h
    · simp [← h] at he
    · split at h
      · split at h <;> simp [← h] at he
      · split at h
        · simp [← h] at he
        · split at h
          · rename_i mark q rest hm
            refine ⟨mark,q,rest,hm,?_⟩
            split at h
            · exact .inr (.inl h.symm)
            · split at h
              · exact .inr (.inr h.symm)
              · exact .inl h.symm
          · repeat' split at h
            all_goals simp [← h] at he

theorem quoted_of_classify {depth : Int} {lexeme : Text} {e : Effect} (h : classify depth lexeme = e)
    (he : e = .token .string ∨ ∃ q, e = .openTriple q ∨ e = .openSingle q) : Lexeme.IsQuoted lexeme := by
  obtain ⟨mark,q,rest,hm,-⟩ := literalMark_of_classify h he
  exact Lexeme.isQuoted_of_literalMark hm

/-! ### Within a line -/

theorem located_lexeme {kind : TokenKind} {value after : Text} (h : LineAt lines row text)
    (hd : text.drop col = value ++ after) (hq : kind = .string → Lexeme.IsQuoted value) :
    Located lines ⟨kind, value, ⟨row, col⟩, ⟨row, col + value.length⟩, text⟩ := by
  refine ⟨h.textBefore_add hd,.inr ⟨rfl,Nat.le_add_right _ _⟩,hq,fun hk => ⟨text,h,?_,?_⟩⟩
  · obtain ⟨mark,q,rest,rfl,-⟩ := hq hk
    simp only [List.length_append,List.length_cons]
    omega
  · obtain ⟨mark,q,rest,rfl,-⟩ := hq hk
    have hlength := congrArg List.length hd
    simp only [List.length_drop,List.length_append,List.length_cons] at hlength ⊢
    omega

theorem drop_behind {value after : Text} (hd : text.drop col = value ++ after) :
    text.drop (col + value.length) = after := by
  rw [← List.drop_drop,hd,List.drop_left]

theorem length_behind {value after : Text} (hd : text.drop col = value ++ after) (hcol : col ≤ text.length) :
    col + value.length ≤ text.length := by
  have := congrArg List.length hd
  simp only [List.length_drop,List.length_append] at this
  omega

theorem drop_blanks (hd : text.drop col = rest) :
    text.drop (col + (rest.takeWhile Lexeme.isBlank).length) = rest.dropWhile Lexeme.isBlank :=
  drop_behind (hd.trans List.takeWhile_append_dropWhile.symm)

/-- The tokens of the rest of a line, and a string that it leaves open. -/
theorem lineTokens_laid (h : LineAt lines row text) (fuel : Nat) (s : State) (col : Nat) (rest : Text)
    (hs : s.openString = none) (hd : text.drop col = rest) (hcol : col ≤ text.length) :
    LaidBehind lines ⟨row, col⟩ row text (lineTokens row text fuel s col rest).1
      (.go (lineTokens row text fuel s col rest).2) := by
  have hnone {s : State} {col : Nat} (hs : s.openString = none) (hcol : col ≤ text.length) :
      LaidBehind lines ⟨row, col⟩ row text [] (.go s) :=
    ⟨State.limit_behind hs hcol,holding_of_none hs⟩
  induction fuel generalizing s col rest with
  | zero => exact hnone hs hcol
  | succ fuel ih =>
    have hbody := drop_blanks hd
    have hblanks : col + (rest.takeWhile Lexeme.isBlank).length ≤ text.length :=
      length_behind (hd.trans List.takeWhile_append_dropWhile.symm) hcol
    have hcons {kind : TokenKind} {value after : Text} {first : Nat} {s : State} (hs : s.openString = none)
        (hdrop : text.drop first = value ++ after) (hfirst : col ≤ first) (hlength : first ≤ text.length)
        (hq : kind = .string → Lexeme.IsQuoted value) :
        LaidBehind lines ⟨row, col⟩ row text (⟨kind, value, ⟨row, first⟩, ⟨row, first + value.length⟩, text⟩ ::
          (lineTokens row text fuel s (first + value.length) after).1)
          (.go (lineTokens row text fuel s (first + value.length) after).2) := by
      obtain ⟨hlaid,hholding⟩ := ih s _ _ hs (drop_behind hdrop) (length_behind hdrop hlength)
      exact ⟨⟨.inr ⟨rfl,hfirst⟩,located_lexeme h hdrop hq,hlaid⟩,hholding⟩
    have hopen {b : Bool} {lexeme after : Text} {q : Char} {must : Bool}
        (hcut : Lexeme.next (rest.dropWhile Lexeme.isBlank) = some (lexeme, after))
        (hq : Lexeme.IsQuoted lexeme) :
        LaidBehind lines ⟨row, col⟩ row text [] (.go { s with
          openString := some ⟨⟨row, col + (rest.takeWhile Lexeme.isBlank).length⟩,
            rest.dropWhile Lexeme.isBlank, text, q, b⟩
          mustContinue := must }) := by
      refine ⟨.inr ⟨rfl,Nat.le_add_right _ _⟩,?_⟩
      rintro o ⟨⟩
      exact ⟨hbody ▸ h.textBefore_succ.trans (h.textBefore_end _),Lexeme.next_cuts _ _ _ hcut ▸ hq.append after,
        Nat.lt_succ_self row⟩
    unfold lineTokens
    dsimp only
    split
    · exact hnone hs hcol
    · rename_i c cs
      split
      · exact hnone hs hcol
      · split
        · have hc : text.drop col = [c] ++ cs := hd
          exact hcons hs hc (Nat.le_refl col) hcol (by simp)
        · rename_i lexeme after hcut
          have hlex := hbody.trans (Lexeme.next_cuts _ _ _ hcut).symm
          split
          · rename_i kind hclass
            exact hcons hs hlex (Nat.le_add_right _ _) hblanks fun hk => quoted_of_classify hclass (.inl (hk ▸ rfl))
          · exact hcons (s := { s with depth := _ }) hs hlex (Nat.le_add_right _ _) hblanks (by simp)
          · refine (ih { s with continued := true } _ _ hs (drop_behind hlex) (length_behind hlex hblanks)).lower
              (.inr ⟨rfl,?_⟩)
            rw [Nat.add_assoc]
            exact Nat.le_add_right _ _
          · rename_i q hclass
            have hq := quoted_of_classify hclass (.inr ⟨q,.inl rfl⟩)
            split
            · rename_i ending after' hend
              have hstring : text.drop (col + ((c :: cs).takeWhile Lexeme.isBlank).length) =
                  (lexeme ++ ending) ++ after' := by
                rw [hlex,List.append_assoc,(Lexeme.stringEnd_cuts hend).1]
              exact hcons hs hstring (Nat.le_add_right _ _) hblanks fun _ => hq.append ending
            · exact hopen hcut hq
          · rename_i q hclass
            exact hopen hcut (quoted_of_classify hclass (.inr ⟨q,.inr rfl⟩))

/-! ### Line by line -/

theorem closeIndents_laid (width row col : Nat) (text : Text) (indents : List Nat) :
    Laid lines ⟨row, col⟩ ⟨row, col⟩ (closeIndents width row col text indents).1 := by
  refine Laid.constant ?_
  induction indents with
  | nil => simp [closeIndents]
  | cons i outer ih =>
    unfold closeIndents
    split
    · split
      · exact List.forall_mem_cons.mpr ⟨⟨rfl,rfl,rfl,by simp⟩,ih⟩
      · simp
    · simp

theorem stripRightOf_append (set t : Text) : ∃ b, Text.stripRightOf set t ++ b = t := by
  refine ⟨(t.reverse.takeWhile (set.contains ·)).reverse,?_⟩
  rw [Text.stripRightOf,← List.reverse_append,List.takeWhile_append_dropWhile,List.reverse_reverse]

theorem statementLine_laid (h : LineAt lines row text) (hs : s.openString = none) :
    LaidBehind lines ⟨row, 0⟩ row text (statementLine s row text).1 (statementLine s row text).2 := by
  have hsplit : text.drop 0 = text.takeWhile Lexeme.isBlank ++ text.dropWhile Lexeme.isBlank :=
    List.drop_zero.trans List.takeWhile_append_dropWhile.symm
  have hbody := drop_behind hsplit
  have hcol := length_behind hsplit (Nat.zero_le _)
  rw [Nat.zero_add] at hbody hcol
  unfold statementLine
  dsimp only
  split
  · exact ⟨rfl,hs⟩
  · rename_i c _ _
    split
    · refine ⟨?_,holding_of_none hs⟩
      have hnl {n : Nat} (hn : n ≤ text.length) : Laid lines ⟨row, n⟩ (s.limit (row + 1) text)
          [⟨.nl, text.drop n, ⟨row, n⟩, ⟨row, text.length⟩, text⟩] :=
        ⟨Position.le_refl _,⟨h.textBefore_end _,.inr ⟨rfl,hn⟩,by simp,by simp⟩,
          State.limit_behind hs (Nat.le_refl _)⟩
      split
      · obtain ⟨b,hb⟩ := stripRightOf_append "\r\n" (text.dropWhile Lexeme.isBlank)
        have hremark := hbody.trans hb.symm
        exact ⟨.inr ⟨rfl,Nat.zero_le _⟩,located_lexeme h hremark (by simp),hnl (length_behind hremark hcol)⟩
      · exact (hnl hcol).lower (.inr ⟨rfl,Nat.zero_le _⟩)
    · have hindent : Laid lines ⟨row, 0⟩ ⟨row, (text.takeWhile Lexeme.isBlank).length⟩
          (if indentWidth (text.takeWhile Lexeme.isBlank) > s.indents.headD 0 then
            [(⟨.indent, text.takeWhile Lexeme.isBlank, ⟨row, 0⟩, ⟨row, (text.takeWhile Lexeme.isBlank).length⟩,
              text⟩ : Token)] else []) := by
        split
        · have hblanks := located_lexeme h hsplit (fun hk : TokenKind.indent = .string => nomatch hk)
          rw [Nat.zero_add] at hblanks
          exact Laid.single hblanks
        · exact .inr ⟨rfl,Nat.zero_le _⟩
      have hdedents (width : Nat) (indents : List Nat) : Laid lines ⟨row, (text.takeWhile Lexeme.isBlank).length⟩ _ _ :=
        closeIndents_laid width row _ text indents
      split
      · rename_i ts _ fault heq
        have hts := congrArg Prod.fst heq ▸ hdedents _ _
        exact ⟨_,hindent.append hts⟩
      · rename_i ts indents heq
        have hts := congrArg Prod.fst heq ▸ hdedents _ _
        obtain ⟨hrest,hholding⟩ := lineTokens_laid h ((text.dropWhile Lexeme.isBlank).length + 1)
          { s with indents } _ _ hs hbody hcol
        exact ⟨(hindent.append hts).append hrest,hholding⟩

theorem stringLine_laid {o : OpenString} (h : LineAt lines row text) (ho : Begun lines row o) :
    LaidBehind lines o.start row text (stringLine s o row text).1 (.go (stringLine s o row text).2) := by
  have hline : textBefore lines ⟨row + 1, 0⟩ = textBefore lines o.start ++ (o.text ++ text) := by
    rw [h.textBefore_succ,h.textBefore_end 0,ho.text,List.append_assoc,List.drop_zero]
  unfold stringLine
  split
  · rename_i ending after hend
    obtain ⟨hcut,hne⟩ := Lexeme.stringEnd_cuts hend
    have hd : text.drop 0 = ending ++ after := List.drop_zero.trans hcut.symm
    have hstop := h.textBefore_add hd
    have hbehind := drop_behind hd
    have hlength := length_behind hd (Nat.zero_le _)
    rw [Nat.zero_add] at hstop hbehind hlength
    obtain ⟨hts,hholding⟩ := lineTokens_laid h (after.length + 1)
      { s with openString := none, mustContinue := false } _ _ rfl hbehind hlength
    refine ⟨⟨Position.le_refl _,⟨?_,.inl ho.earlier,fun _ => ho.quoted.append ending,fun _ => ⟨text,h,?_,hlength⟩⟩,
      hts⟩,hholding⟩
    · rw [hstop,ho.text,List.append_assoc]
    · exact List.length_pos_iff.mpr hne
  · split
    · refine ⟨⟨Position.le_refl _,⟨h.textBefore_succ.symm.trans hline,.inl ho.earlier,by simp,by simp⟩,?_⟩,
        holding_of_none rfl⟩
      exact State.limit_behind rfl (Nat.le_refl _)
    · refine ⟨Position.le_refl _,?_⟩
      rintro o' ⟨⟩
      exact ⟨hline,ho.quoted.append text,Nat.lt_succ_of_lt ho.earlier⟩

theorem line_laid (h : LineAt lines row text) (last : Text) (hs : Holding lines row s) :
    LaidBehind lines (s.limit row last) row text (line s row text).1 (line s row text).2 := by
  unfold line
  split
  · rename_i o ho
    have hlimit : s.limit row last = o.start := by simp [State.limit,ho]
    rw [hlimit]
    exact stringLine_laid h (hs o ho)
  · rename_i ho
    have hlimit : (s.limit row last).le ⟨row, 0⟩ := by
      unfold State.limit
      rw [ho]
      dsimp only
      split
      · exact Position.le_refl _
      · exact .inl (Nat.sub_lt h.pos Nat.one_pos)
    split
    · exact (statementLine_laid h ho).lower hlimit
    · exact (lineTokens_laid h _ { s with continued := false } _ _ ho List.drop_zero (Nat.zero_le _)).lower hlimit

theorem closing_laid (hs : s.openString = none) (h : LineAt lines row text ∨ text = []) :
    Laid lines (s.limit (row + 1) text) ⟨row + 1, 0⟩ (closing s (row + 1) text) := by
  have hmarks : Laid lines ⟨row + 1, 0⟩ ⟨row + 1, 0⟩
      (s.indents.map (fun _ => (⟨.dedent, [], ⟨row + 1, 0⟩, ⟨row + 1, 0⟩, []⟩ : Token)) ++
        [⟨.endMarker, [], ⟨row + 1, 0⟩, ⟨row + 1, 0⟩, []⟩]) := by
    refine Laid.constant fun t ht => ?_
    rcases List.mem_append.mp ht with ht | ht
    · obtain ⟨-,-,rfl⟩ := List.mem_map.mp ht
      exact ⟨rfl,rfl,rfl,by simp⟩
    · rw [List.mem_singleton.mp ht]
      exact ⟨rfl,rfl,rfl,by simp⟩
  unfold closing
  dsimp only
  rw [List.append_assoc]
  refine Laid.append ?_ hmarks
  unfold State.limit
  rw [hs]
  cases text with
  | nil => exact Position.le_refl _
  | cons c cs =>
    have h := h.resolve_right (List.cons_ne_nil c cs)
    have hnewline {b : Bool} : Laid lines ⟨row, (c :: cs).length⟩ ⟨row + 1, 0⟩ (if b then
        [(⟨.newline, [], ⟨row, (c :: cs).length⟩, ⟨row, (c :: cs).length + 1⟩, []⟩ : Token)] else []) := by
      cases b with
      | false => exact .inl (Nat.lt_succ_self row)
      | true =>
        refine ⟨Position.le_refl _,⟨?_,.inr ⟨rfl,Nat.le_succ _⟩,by simp,by simp⟩,.inl (Nat.lt_succ_self row)⟩
        rw [h.textBefore_eq,h.textBefore_eq,List.take_length,List.take_of_length_le (Nat.le_succ _),
          List.append_nil]
    exact hnewline

theorem linesFrom_laid (before : List Text) (last : Text) (ls : List Text)
    (hlast : last = before.getLastD []) (hs : Holding (before ++ ls) (before.length + 1) s) :
    ∃ hi, Laid (before ++ ls) (s.limit (before.length + 1) last) hi (linesFrom s (before.length + 1) last ls).tokens := by
  have hend {before ls : List Text} {last : Text} {s : State} (hs : s.openString = none)
      (hlast : last = before.getLastD []) :
      Laid (before ++ ls) (s.limit (before.length + 1) last) ⟨before.length + 1, 0⟩
        (closing s (before.length + 1) last) := by
    refine closing_laid hs ?_
    rcases List.eq_nil_or_concat before with rfl | ⟨init,l,rfl⟩
    · exact .inr hlast
    · exact .inl ⟨by simp,by simp [hlast]⟩
  induction ls generalizing s before last with
  | nil =>
    unfold linesFrom
    split
    · exact ⟨_,Position.le_refl _⟩
    · rename_i hopen
      split
      · exact ⟨_,hend (by simpa using hopen) hlast⟩
      · exact ⟨_,Position.le_refl _⟩
  | cons text rest ih =>
    have htext : LineAt (before ++ text :: rest) (before.length + 1) text := ⟨by simp,by simp⟩
    have hline := line_laid htext last hs
    unfold linesFrom
    split
    · rename_i ts s' heq
      rw [heq] at hline
      obtain ⟨hts,hholding⟩ := hline
      have hrest := ih (before ++ [text]) text (by simp) (s := s')
      simp only [List.append_assoc,List.cons_append,List.nil_append,List.length_append,
        List.length_singleton] at hrest
      obtain ⟨hi,hrest⟩ := hrest hholding
      exact ⟨hi,hts.append hrest⟩
    · rename_i ts s' heq
      rw [heq] at hline
      obtain ⟨rfl,hopen⟩ := hline
      have hnone : s.openString = none := by
        unfold line at heq
        split at heq
        · exact absurd (congrArg Prod.snd heq) nofun
        · assumption
      have hlimit : s.limit (before.length + 1) last = s'.limit (before.length + 1) last := by
        simp only [State.limit,hnone,hopen]
      rw [hlimit]
      exact ⟨_,hend hopen hlast⟩
    · rename_i ts fault heq
      rw [heq] at hline
      exact hline

/-- The tokens of a text, from its first line on. -/
theorem ofText_laid (source : Text) : ∃ hi, Laid source.lines ⟨1, 0⟩ hi (Scan.ofText source).tokens :=
  linesFrom_laid (s := {}) [] [] source.lines rfl (by simp [Holding])

theorem located_ofText (source : Text) :
    ∀ t ∈ (Scan.ofText source).tokens, Located source.lines t := by
  obtain ⟨hi,h⟩ := ofText_laid source
  exact h.located

end Scan

end DocLint
