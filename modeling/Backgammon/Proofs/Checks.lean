import Backgammon.SettingError

/-!
# Proofs/Checks — what is known of settings that pass their checks

* `passed_of_bind`, `passed_of_guard`, `passed_of_forM` — of checks in a row all are passed.
* `pos_of_checkPositive`, `checkRange_eq_ok_iff` — what the checks of single numbers let pass.
-/

namespace Backgammon

/-- Of a check and what follows it both are passed. -/
theorem passed_of_bind {ε β : Type} {check : Except ε Unit} {rest : Unit → Except ε β} {b : β}
    (passed : (check >>= rest) = .ok b) : check = .ok () ∧ rest () = .ok b := by
  cases check with
  | error e => exact nomatch passed
  | ok _ => exact ⟨rfl, passed⟩

/-- A check that something is not the case, and what follows it. -/
theorem passed_of_guard {ε β : Type} {bad : Bool} {e : ε} {rest : Unit → Except ε β} {b : β}
    (passed : (if bad = true then (do let r ← throw e; rest r) else rest ()) = .ok b) :
    bad = false ∧ rest () = .ok b := by
  cases bad with
  | true => exact nomatch passed
  | false => exact ⟨rfl, passed⟩

/-- Of a check made of every member of a list all are passed. -/
theorem passed_of_forM {ε β : Type} {check : β → Except ε Unit} {l : List β}
    (passed : l.forM check = .ok ()) : ∀ b ∈ l, check b = .ok () := by
  induction l with
  | nil => exact nofun
  | cons a l ih =>
    have passed : (do check a; l.forM check) = .ok () := passed
    obtain ⟨first, rest⟩ := passed_of_bind passed
    exact List.forall_mem_cons.2 ⟨first, ih rest⟩

variable {α : Type} [Scalar α] {setting : String} {value lo hi : α}

/-- **A range check** lets pass a number within the bounds, and nothing else. -/
theorem checkRange_eq_ok_iff :
    checkRange setting value lo hi = .ok () ↔
      Scalar.isNaN value = false ∧ ¬value < lo ∧ ¬hi < value := by
  rw [checkRange]
  split
  next outside => exact ⟨nofun, fun inside => by simp [inside] at outside⟩
  next inside => simpa [and_assoc] using inside

/-- What a check for positive numbers lets pass is positive. -/
theorem pos_of_checkPositive (passed : checkPositive setting value = .ok ()) : 0 < value := by
  rw [checkPositive] at passed
  split at passed
  next positive => exact of_decide_eq_true (Bool.and_eq_true_iff.1 positive).2
  next => exact nomatch passed

/-- What a range check lets pass is a number, and neither bound is crossed. -/
theorem isNumber_of_checkRange (passed : checkRange setting value lo hi = .ok ()) :
    Scalar.isNaN value = false ∧ ¬value < lo ∧ ¬hi < value :=
  checkRange_eq_ok_iff.1 passed

end Backgammon
