import Mathlib.Data.Int.Basic
import Mathlib.Tactic.Linarith

/-!
# Machine integers

Signed integers of `w` bits as a compiler treats them. What an operation does when its exact result
does not fit is a setting of the build: it stops the thread, or the result wraps around.

* **`result_of_fits`** — a result that fits is the exact one, under either setting;
* **`fits_of_result_panics`**, **`result_panics_of_le`** — a build that checks gives the exact result
  or none.
-/

namespace MachineInt

/-- What the build does on overflow. -/
inductive Overflow where
  | panics
  | wraps
deriving DecidableEq, Repr

/-- The values of `w` bits, two's complement. -/
def Fits (w : Nat) (n : Int) : Prop := -2 ^ (w - 1) ≤ n ∧ n < 2 ^ (w - 1)

instance (w : Nat) (n : Int) : Decidable (Fits w n) :=
  inferInstanceAs (Decidable (_ ∧ _))

/-- The machine's result of an operation whose exact result is `n`; `none` is a panic. -/
def result (w : Nat) : Overflow → Int → Option Int
  | .panics, n => if Fits w n then some n else none
  | .wraps, n => some ((n + 2 ^ (w - 1)) % 2 ^ w - 2 ^ (w - 1))

section

variable {w : Nat} {n : Int} {overflow : Overflow}

theorem two_pow_pred (hw : 0 < w) : (2 : Int) ^ w = 2 * 2 ^ (w - 1) := by
  obtain ⟨k, rfl⟩ : ∃ k, w = k + 1 := ⟨w - 1, by omega⟩
  rw [Nat.add_sub_cancel, Int.pow_succ, Int.mul_comm]

theorem result_of_fits (hw : 0 < w) (h : Fits w n) (overflow : Overflow) :
    result w overflow n = some n := by
  cases overflow with
  | panics => exact if_pos h
  | wraps =>
    have hpow := two_pow_pred hw
    have hmod : (n + 2 ^ (w - 1)) % 2 ^ w = n + 2 ^ (w - 1) := by
      apply Int.emod_eq_of_lt
      · linarith [h.1]
      · linarith [h.2]
    show some _ = some n
    rw [hmod, Int.add_sub_cancel]

theorem fits_of_result_panics {m : Int} (h : result w .panics n = some m) : Fits w n ∧ m = n := by
  by_cases hfits : Fits w n
  · have hn : result w .panics n = some n := if_pos hfits
    rw [hn] at h
    exact ⟨hfits, (Option.some.inj h).symm⟩
  · have hn : result w .panics n = none := if_neg hfits
    rw [hn] at h
    cases h

/-- A natural number fits if it is below the first that does not. -/
theorem fits_of_nonneg (hn : 0 ≤ n) (h : n < 2 ^ (w - 1)) : Fits w n := by
  have hpos : (0 : Int) < 2 ^ (w - 1) := Int.pow_pos (by omega)
  exact ⟨by linarith, h⟩

/-- **A natural number that does not fit** stops a build that checks. -/
theorem result_panics_of_le (h : 2 ^ (w - 1) ≤ n) : result w .panics n = none := by
  refine if_neg fun hfits => ?_
  linarith [hfits.2]

end

end MachineInt
