import DocLint.Violation

/-!
Answers that may be refused.
-/

set_option autoImplicit false

namespace DocLint

variable {ε α : Type} {x : Except ε α}

theorem toOption_eq_some {a : α} (h : x.toOption = some a) : x = .ok a := by
  cases x with
  | error e => cases h
  | ok b => exact congrArg Except.ok (Option.some.inj h)

theorem exists_of_any {p : α → Bool} (h : x.toOption.any p = true) : ∃ a, x = .ok a ∧ p a = true := by
  cases x with
  | error e => cases h
  | ok a => exact ⟨a,rfl,h⟩

theorem checkSource_eq_ok [Resources] {o : CheckOptions} {file source : Text} {verdict : Verdict} :
    checkSource o file source = .ok verdict ↔ ∃ m, Module.ofText file source = .ok m ∧ m.check o = verdict := by
  unfold checkSource
  cases Module.ofText file source <;> simp [Except.map]

end DocLint
