import Mathlib.Data.List.Forall2
import Mathlib.Data.List.Pairwise
import DocLint.Proofs.Token.FoldedScan

/-!
A letter of a mark in the other case. If it stands at the beginning of a string, the tokens of the text
remain what they are and where they are, but for this letter.
-/

set_option autoImplicit false

namespace DocLint

def otherCase (c : Char) : Char :=
  if c = 'r' then 'R' else if c = 'R' then 'r' else if c = 'u' then 'U' else if c = 'U' then 'u' else c

/-- The text with the letter at a place in the other case. -/
def Text.recased (t : Text) (k : Nat) : Text := t.modify k otherCase

theorem foldMark_otherCase (c : Char) : foldMark (otherCase c) = foldMark c := by
  by_cases hc : c ∈ plainLetters
  · simp only [plainLetters,List.mem_cons,List.not_mem_nil,or_false] at hc
    obtain rfl | rfl | rfl | rfl := hc <;> decide
  · simp only [plainLetters,List.mem_cons,List.not_mem_nil,or_false,not_or] at hc
    simp [otherCase,hc]

section Letter

variable {c q : Char} {rest : Text}

theorem otherCase_congr {α : Type} {p : Char → α} (hr : p 'r' = p 'R') (hu : p 'u' = p 'U') (c : Char) :
    p (otherCase c) = p c := by
  rw [← foldMark_congr hr hu (otherCase c),foldMark_otherCase,foldMark_congr hr hu]

theorem otherCase_mem (h : c ∈ plainLetters) : otherCase c ∈ plainLetters := by
  have hall : (plainLetters.all fun c => plainLetters.contains (otherCase c)) = true := by decide
  exact List.contains_iff_mem.mp (List.all_eq_true.mp hall c h)

theorem of_mem_plainLetters {p : Char → Bool} (hall : plainLetters.all p = true) (h : c ∈ plainLetters) :
    p c = true := List.all_eq_true.mp hall c h

theorem literalMark?_letter (hc : c ∈ plainLetters) (hq : Lexeme.isQuote q = true) :
    Lexeme.literalMark? (c :: q :: rest) = some ([c], q :: rest) := by
  have hmark : Lexeme.isLiteralMark [c] = true :=
    of_mem_plainLetters (p := fun c => Lexeme.isLiteralMark [c]) (by decide) hc
  exact Lexeme.literalMark_append hmark hq

end Letter

variable {source t : Text} {k : Nat} {p q : Position}

theorem Text.folded_recased : (t.recased k).folded = t.folded := by
  refine List.ext_getElem? fun n => ?_
  rw [folded,folded,List.getElem?_map,List.getElem?_map,recased,List.getElem?_modify]
  split
  · cases t[n]? with
    | none => rfl
    | some c => simp [foldMark_otherCase]
  · cases t[n]? <;> rfl

/-! ### Offsets -/

def offset (source : Text) (p : Position) : Nat := (textBefore source.lines p).length

theorem textBefore_begins (source : Text) (p : Position) : textBefore source.lines p <+: source := by
  have hlines : source = (source.lines.take (p.row - 1)).flatten ++ (source.lines.drop (p.row - 1)).flatten := by
    rw [← List.flatten_append,List.take_append_drop,Text.flatten_lines]
  have hline : (source.lines.getD (p.row - 1) []).take p.col <+: (source.lines.drop (p.row - 1)).flatten := by
    cases hd : source.lines.drop (p.row - 1) with
    | nil =>
      have hnone : source.lines[p.row - 1]? = none := List.getElem?_eq_none_iff.mpr (List.drop_eq_nil_iff.mp hd)
      simp [hnone]
    | cons l ls =>
      have hsome : source.lines[p.row - 1]? = some l := by
        rw [← List.head?_drop,hd]
        rfl
      simp only [List.getD_eq_getElem?_getD,hsome,Option.getD_some,List.flatten_cons]
      exact (List.take_prefix _ _).trans (List.prefix_append _ _)
  obtain ⟨rest,hrest⟩ := hline
  refine ⟨rest,?_⟩
  rw [textBefore,List.append_assoc,hrest]
  exact hlines.symm

theorem textBefore_eq_take (source : Text) (p : Position) :
    textBefore source.lines p = source.take (offset source p) :=
  List.prefix_iff_eq_take.mp (textBefore_begins source p)

theorem textBefore_folded (lines : List Text) (p : Position) :
    textBefore (lines.map Text.folded) p = Text.folded (textBefore lines p) := by
  have hline : (lines.map Text.folded).getD (p.row - 1) [] = Text.folded (lines.getD (p.row - 1) []) := by
    simp only [List.getD_eq_getElem?_getD,List.getElem?_map]
    cases lines[p.row - 1]? <;> rfl
  rw [textBefore,textBefore,hline,Text.folded_take,Text.folded_append,← List.map_take]
  congr 1
  exact List.map_flatten.symm

theorem offset_recased (source : Text) (k : Nat) (p : Position) :
    offset (source.recased k) p = offset source p := by
  have hfolded (t : Text) : offset t p = (textBefore t.folded.lines p).length := by
    rw [Text.lines_folded,textBefore_folded,Text.folded_length]
    rfl
  rw [hfolded,Text.folded_recased,← hfolded]

theorem offset_mono (source : Text) (hrow : 0 < p.row) (h : p.le q) : offset source p ≤ offset source q := by
  simp only [offset,textBefore,List.length_append,List.length_take]
  rcases h with h | ⟨h,hcol⟩
  · obtain ⟨n,hn⟩ := Nat.exists_eq_add_of_lt h
    have htake : source.lines.take (p.row - 1) ++ source.lines[p.row - 1]?.toList <+:
        source.lines.take (q.row - 1) := by
      rw [← List.take_add_one]
      exact List.take_prefix_take_left (by omega)
    obtain ⟨ls,hls⟩ := htake
    rw [← hls]
    simp only [List.flatten_append,List.length_append,List.getD_eq_getElem?_getD]
    cases source.lines[p.row - 1]? with
    | none =>
      simp only [Option.getD_none,List.length_nil]
      omega
    | some l =>
      simp only [Option.getD_some,Option.toList_some,List.flatten_cons,List.flatten_nil,List.append_nil]
      omega
  · rw [h]
    omega

/-! ### Values -/

theorem Located.value_eq {u : Token} (h : Located source.lines u) :
    u.value = (source.take (offset source u.stop)).drop (offset source u.start) := by
  rw [← textBefore_eq_take,h.text,offset,List.drop_left]

theorem Located.offset_stop {u : Token} (h : Located source.lines u) :
    offset source u.stop = offset source u.start + u.value.length := by
  rw [offset,h.text,List.length_append]
  rfl

theorem Text.recased_of_le (h : t.length ≤ k) : t.recased k = t := List.modify_eq_self h

theorem Text.take_drop_recased (t : Text) (k b e : Nat) : ((t.recased k).take e).drop b =
    if b ≤ k then Text.recased ((t.take e).drop b) (k - b) else (t.take e).drop b := by
  rw [recased,List.take_modify]
  split
  · exact List.drop_modify_of_ge _ _ _ _ (by assumption)
  · exact List.drop_modify_of_lt _ _ _ _ (by omega)

/-- Tokens at the same place with the same value, or with `v` for the value of `t`. -/
structure Token.Twin (t : Token) (v : Text) (u u' : Token) : Prop where
  kind : u'.kind = u.kind
  start : u'.start = u.start
  stop : u'.stop = u.stop
  value : u'.value = if u = t then v else u.value

section Tokens

variable {t : Token}

theorem Located.offset_lt (h : Located source.lines t) (hk : t.kind = .string) :
    offset source t.start < offset source t.stop := by
  obtain ⟨mark,q,rest,hvalue,-⟩ := h.quoted hk
  rw [h.offset_stop,hvalue,List.length_append,List.length_cons]
  omega

theorem Scan.ofText_apart (source : Text) : (Scan.ofText source).tokens.Pairwise fun t u =>
    offset source t.stop ≤ offset source u.start := by
  obtain ⟨hi,hlaid⟩ := ofText_laid source
  refine hlaid.pairwise.imp_of_mem fun {t u} ht _ h => offset_mono source ?_ h
  rcases (hlaid.bounds t ht).trans (hlaid.located t ht).forward with h | ⟨h,-⟩
  · exact Nat.zero_lt_of_lt h
  · exact Nat.lt_of_lt_of_eq Nat.one_pos h

/-- A string is there once. -/
theorem Scan.ofText_once (ht : t ∈ (Scan.ofText source).tokens) (hk : t.kind = .string) :
    (Scan.ofText source).tokens.Pairwise fun u w => u = t → w ≠ t := by
  have hlt := (located_ofText source t ht).offset_lt hk
  refine (ofText_apart source).imp fun {u w} h => ?_
  rintro rfl rfl
  omega

theorem Scan.ofText_recased (ht : t ∈ (Scan.ofText source).tokens) (hk : t.kind = .string) :
    List.Forall₂ (t.Twin (t.value.recased 0)) (Scan.ofText source).tokens
      (Scan.ofText (source.recased (offset source t.start))).tokens ∧
      (Scan.ofText (source.recased (offset source t.start))).fault = (Scan.ofText source).fault := by
  have hfolded := ofText_folded (source.recased (offset source t.start))
  rw [Text.folded_recased,ofText_folded source] at hfolded
  obtain ⟨htokens,hfault⟩ := Scan.mk.inj hfolded
  have hlocated := located_ofText source
  have hlt := (hlocated t ht).offset_lt hk
  have : Std.Symm fun u w : Token => offset source u.stop ≤ offset source w.start ∨
      offset source w.stop ≤ offset source u.start := ⟨fun _ _ h => h.symm⟩
  have hapart := List.Pairwise.forall ((ofText_apart source).imp fun {u w} (h : _ ≤ _) => Or.inl
    (b := offset source w.stop ≤ offset source u.start) h)
  have hpairs := List.forall₂_iff_zip.mp (List.forall₂_map_left_iff.mp (List.forall₂_map_right_iff.mp
    (List.forall₂_eq_eq_eq.symm ▸ htokens)))
  refine ⟨List.forall₂_iff_zip.mpr ⟨hpairs.1,fun {u u'} hpair => ?_⟩,hfault.symm⟩
  obtain ⟨hu,hu'⟩ := List.of_mem_zip hpair
  obtain ⟨hkind,-,hstart,hstop,-⟩ := Token.mk.inj (hpairs.2 hpair)
  refine ⟨hkind.symm,hstart.symm,hstop.symm,?_⟩
  have hvalue : u'.value = if offset source u.start ≤ offset source t.start then
      u.value.recased (offset source t.start - offset source u.start) else u.value := by
    rw [(located_ofText _ u' hu').value_eq,offset_recased,offset_recased,← hstart,← hstop,Text.take_drop_recased,
      ← (hlocated u hu).value_eq]
  rw [hvalue]
  split
  · rename_i hle
    split
    · rename_i heq
      rw [heq,Nat.sub_self]
    · rename_i hne
      have hstop := (hlocated u hu).offset_stop
      rcases hapart hu ht hne with h | h
      · exact Text.recased_of_le (by omega)
      · omega
  · rename_i hle
    rw [if_neg]
    rintro rfl
    exact hle (Nat.le_refl _)

end Tokens

end DocLint
