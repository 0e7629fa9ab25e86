/-
The order of floats. Two floats stand in one of three orders, or in none if
one of them is NaN, and seen from the other side they stand in the opposite
order (`swap_compare`). Everything that is asked about two floats is asked
about this order.

Main statement: floats are equal exactly if neither is beyond the other
(`floatEq_iff`). Both sides fail for NaN.
-/
import Mathlib.Order.Compare

namespace Formula

open Float.Model

/-- The order of two floats seen from the other side. -/
theorem swap_compare (x y : UnpackedFloat) : (x.compare y).map Ordering.swap = y.compare x := by
  cases x with
  | notANumber => cases y <;> rfl
  | infinity s =>
      cases y with
      | notANumber => cases s <;> rfl
      | infinity t => cases s <;> cases t <;> rfl
      | zero t => cases s <;> rfl
      | finite t m e h => cases s <;> cases t <;> rfl
  | zero s =>
      cases y with
      | notANumber => rfl
      | infinity t => cases t <;> rfl
      | zero t => rfl
      | finite t m e h => cases t <;> rfl
  | finite s m e h =>
      cases y with
      | notANumber => cases s <;> rfl
      | infinity t => cases s <;> cases t <;> rfl
      | zero t => cases s <;> rfl
      | finite t m' e' h' =>
          -- only here magnitudes are compared, below zero the other way round
          cases s <;> cases t
          all_goals
            dsimp only [UnpackedFloat.compare]
            simp [Ordering.swap_then, ← Std.OrientedCmp.eq_swap]

variable {x y : Float}

theorem floatLe_iff :
    x ≤ y ↔ (x.toModel.unpack.compare y.toModel.unpack).any Ordering.isLE = true := by
  show decide (x.toModel ≤ y.toModel) = true ↔ _
  rw [decide_eq_true_iff]
  rfl

theorem floatEq_iff_compare :
    (x == y) = true ↔ x.toModel.unpack.compare y.toModel.unpack = some .eq := by
  show (x.toModel.unpack.compare y.toModel.unpack == some .eq) = true ↔ _
  rw [beq_iff_eq]

/-- Floats are equal if neither is beyond the other. -/
theorem floatEq_iff : (x == y) = true ↔ x ≤ y ∧ y ≤ x := by
  rw [floatEq_iff_compare, floatLe_iff, floatLe_iff, ← swap_compare x.toModel.unpack]
  cases x.toModel.unpack.compare y.toModel.unpack with
  | none => simp
  | some o => cases o <;> simp

end Formula
