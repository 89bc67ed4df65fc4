/-!
# Results that may be faults

What is known of a result when a change or a step after it has given a value, or a fault.
-/

namespace Verse

variable {ε α β : Type} {result : Except ε α} {fault : ε} {b : β}

/-- A changed result is a value just if the result is one. -/
theorem map_eq_ok_iff {change : α → β} :
    result.map change = .ok b ↔ ∃ a, result = .ok a ∧ change a = b := by
  cases result with
  | error fault => simp [Except.map]
  | ok a => simp [Except.map]

/-- A changed result is the fault of the result. -/
theorem map_eq_error_iff {change : α → β} :
    result.map change = .error fault ↔ result = .error fault := by
  cases result with
  | error fault => simp [Except.map]
  | ok a => simp [Except.map]

/-- A step gives a value just if the result before it does, and it does from that. -/
theorem bind_eq_ok_iff {next : α → Except ε β} :
    (result >>= next) = .ok b ↔ ∃ a, result = .ok a ∧ next a = .ok b := by
  cases result with
  | error fault => simp [bind, Except.bind]
  | ok a => simp [bind, Except.bind]

/-- Seen as an option, a value comes from a value. -/
theorem exists_of_toOption_map {change : α → β} (h : result.toOption.map change = some b) :
    ∃ a, result = .ok a ∧ change a = b := by
  cases result with
  | error fault => cases h
  | ok a => exact ⟨a, rfl, Option.some.inj h⟩

/-- A result that is a value as an option is that value. -/
theorem eq_ok_of_toOption {a : α} (h : result.toOption = some a) : result = .ok a := by
  cases result with
  | error fault => cases h
  | ok a => exact congrArg Except.ok (Option.some.inj h)

/-- A result that is nothing as an option is a fault. -/
theorem exists_of_toOption_none (h : result.toOption = none) : ∃ fault, result = .error fault := by
  cases result with
  | error fault => exact ⟨fault, rfl⟩
  | ok a => cases h

end Verse
