import DocLint.Proofs.Text.Opening
import DocLint.Token.Lexeme

/-!
The letters that may stand before the quotes of a literal.
-/

set_option autoImplicit false

namespace DocLint

theorem Text.eq_or_of_lowerAscii {c x : Char} (h : Text.lowerAscii c = x) :
    c = x ∨ c = Char.ofNat (x.toNat - 32) := by
  cases Text.lowerAscii_cases c with
  | inr hsame => exact Or.inl (hsame.2 ▸ h)
  | inl hup =>
    have hn : x.toNat - 32 = c.toNat := by
      rw [← h]
      omega
    exact Or.inr (by rw [hn,Char.ofNat_toNat])

namespace Lexeme

variable {t mark quoted rest : Text} {c q : Char}

def markLetters : List Char := ['b', 'B', 'r', 'R', 'u', 'U', 'f', 'F']

theorem markLetter_of_mem (h : isLiteralMark mark = true) (hc : c ∈ mark) : c ∈ markLetters := by
  have hmem : mark.map Text.lowerAscii ∈ literalMarks := List.contains_iff_mem.mp h
  have hall : (literalMarks.all fun m => m.all ['b', 'r', 'u', 'f'].contains) = true := by decide
  have hlow := List.all_eq_true.mp (List.all_eq_true.mp hall _ hmem) _
    (List.mem_map_of_mem (f := Text.lowerAscii) hc)
  simp only [List.contains_iff_mem,List.mem_cons,List.not_mem_nil,or_false] at hlow
  obtain h | h | h | h := hlow <;> obtain rfl | rfl := Text.eq_or_of_lowerAscii h <;> decide

theorem length_of_isLiteralMark (h : isLiteralMark mark = true) : mark.length ≤ 2 := by
  have hmem : mark.map Text.lowerAscii ∈ literalMarks := List.contains_iff_mem.mp h
  have hall : (literalMarks.all fun m => m.length ≤ 2) = true := by decide
  simpa using List.all_eq_true.mp hall _ hmem

theorem not_markLetter_of_isQuote (h : isQuote c = true) : c ∉ markLetters := by
  have hc : c = '"' ∨ c = '\'' := by simpa [isQuote] using h
  obtain rfl | rfl := hc <;> decide

theorem literalMark_eq (h : literalMark? t = some (mark, quoted)) :
    t = mark ++ quoted ∧ isLiteralMark mark = true ∧
      ∃ q rest, quoted = q :: rest ∧ isQuote q = true := by
  obtain ⟨n,-,hn⟩ := List.exists_of_findSome?_eq_some h
  unfold markOf? at hn
  split at hn
  case h_2 => cases hn
  case h_1 q rest hq =>
    split at hn
    case isFalse => cases hn
    case isTrue hok =>
      rw [Bool.and_eq_true] at hok
      obtain ⟨rfl,rfl⟩ := Prod.mk.inj (Option.some.inj hn)
      exact ⟨(List.take_append_drop n t).symm,hok.2,q,rest,hq,hok.1⟩

theorem literalMark_append (hm : isLiteralMark mark = true) (hq : isQuote q = true) :
    literalMark? (mark ++ q :: rest) = some (mark, q :: rest) := by
  have hletter : ∀ c ∈ mark, isQuote c = false := by
    intro c hc
    cases h : isQuote c with
    | false => rfl
    | true => exact absurd (markLetter_of_mem hm hc) (not_markLetter_of_isQuote h)
  have hlength := length_of_isLiteralMark hm
  match mark with
  | [] => simp [literalMark?,markOf?,hq,hm]
  | [a] => simp [literalMark?,markOf?,hq,hm,hletter a]
  | [a, b] => simp [literalMark?,markOf?,hq,hm,hletter a,hletter b]
  | _ :: _ :: _ :: _ => simp at hlength

theorem plain_mark (h : isLiteralMark mark = true)
    (hb : (mark.any fun c => c == 'b' || c == 'B') = false)
    (hf : (mark.any fun c => c == 'f' || c == 'F') = false) :
    mark = [] ∨ ∃ c, mark = [c] ∧ (c = 'r' ∨ c = 'R' ∨ c = 'u' ∨ c = 'U') := by
  have hletter : ∀ c ∈ mark, c = 'r' ∨ c = 'R' ∨ c = 'u' ∨ c = 'U' := by
    intro c hc
    have hcb := List.any_eq_false.mp hb c hc
    have hcf := List.any_eq_false.mp hf c hc
    have hmem := markLetter_of_mem h hc
    simp only [markLetters,List.mem_cons,List.not_mem_nil,or_false] at hmem
    simp only [Bool.or_eq_true,beq_iff_eq,not_or] at hcb hcf
    simpa [hcb,hcf] using hmem
  match mark with
  | [] => exact Or.inl rfl
  | [c] => exact Or.inr ⟨c,rfl,hletter c (by simp)⟩
  | [a, b] =>
    have h₁ := hletter a (by simp)
    have h₂ := hletter b (by simp)
    obtain rfl | rfl | rfl | rfl := h₁ <;> obtain rfl | rfl | rfl | rfl := h₂ <;>
      exact absurd h (by decide)
  | _ :: _ :: _ :: _ =>
    have := length_of_isLiteralMark h
    simp at this

end Lexeme

end DocLint
