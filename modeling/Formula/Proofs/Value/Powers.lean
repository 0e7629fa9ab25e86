/-
Powers of integers, with either coercion. A power is computed by squaring, and
every product on the way has to fit 64 bits. That reports nothing but powers
that do not fit: a product with the base is taken only if it divides the
result, and a square only if the result is a multiple of it
(`Checked.powFrom_eq`). The second needs a gap between the squares: the first
one out of range is out of range below zero as well (`Checked.lt_square`).

Main statement: powers with exponents from zero up to `exponentBound` are exact
or reported (`integer_power`). Beyond the bound they are not, they are floats
(`power_not_exact`).
-/
import Formula.Proofs.Value.Integers
import Mathlib.Algebra.Order.Ring.Int
import Mathlib.Tactic.Linarith
import Mathlib.Tactic.Ring

namespace Formula

namespace Checked

variable {m n : Int}

-- ============================================================= the range

/-- A multiple of a number that does not fit does not fit either. -/
theorem not_fits_mul (h : ¬Fits m) (hn : 0 < n) : ¬Fits (m * n) := by
  have hm : m < least ∨ greatest < m := by
    unfold Fits at h
    omega
  intro hfits
  obtain ⟨hlow, hhigh⟩ := hfits
  rcases hm with hm | hm
  · have hless : m * n ≤ m * 1 := Int.mul_le_mul_of_nonpos_left (by unfold least at hm; omega) hn
    omega
  · have hless : m * 1 ≤ m * n := Int.mul_le_mul_of_nonneg_left hn (by unfold greatest at hm; omega)
    omega

/-- A square that does not fit is beyond the least number, too, but for the
sign. -/
theorem lt_square (h : ¬Fits (m * m)) : -least < m * m := by
  -- the root of the greatest number, rounded down
  have hroot : 3037000499 < m.natAbs := by
    by_contra hle
    have hsquare : m.natAbs * m.natAbs ≤ 3037000499 * 3037000499 := by
      apply Nat.mul_le_mul
      · omega
      · omega
    apply h
    rw [← Int.natAbs_mul_self]
    unfold Fits least greatest
    omega
  have hsquare : 3037000500 * 3037000500 ≤ m.natAbs * m.natAbs := by
    apply Nat.mul_le_mul
    · omega
    · omega
  rw [← Int.natAbs_mul_self]
  unfold least
  omega

/-- So no multiple of it fits, with either sign. -/
theorem not_fits_mul_square (h : ¬Fits (m * m)) (hn : n ≠ 0) : ¬Fits (n * (m * m)) := by
  have hgap := lt_square h
  intro hfits
  obtain ⟨hlow, hhigh⟩ := hfits
  unfold least at hgap hlow
  unfold greatest at hhigh
  rcases Int.lt_or_gt_of_ne hn with hneg | hpos
  · nlinarith
  · nlinarith

-- ============================================================== squaring

/-- What the lowest bit of an exponent brings into a power. -/
def lowest (m : Int) (n : Nat) : Int := if n % 2 = 1 then m else 1

theorem lowest_ne_zero (h : m ≠ 0) (n : Nat) : lowest m n ≠ 0 := by
  unfold lowest
  split
  · exact h
  · exact one_ne_zero

/-- A power by half the exponent. -/
theorem pow_eq_halves (m : Int) (n : Nat) : m ^ n = lowest m n * (m * m) ^ (n / 2) := by
  have hn : n = 2 * (n / 2) + n % 2 := by omega
  conv => lhs; rw [hn]
  rw [pow_add, pow_mul, pow_two, mul_comm]
  unfold lowest
  rcases Nat.mod_two_eq_zero_or_one n with heven | hodd
  · rw [heven, pow_zero, if_neg (by decide)]
  · rw [hodd, pow_one, if_pos rfl]

theorem square_pow_pos (h : m ≠ 0) (n : Nat) : 0 < (m * m) ^ n :=
  pow_pos (mul_self_pos.2 h) n

theorem ne_zero_of_square (h : ¬Fits (m * m)) : m ≠ 0 := by
  rintro rfl
  exact h (by decide)

/-- A square that does not fit is among the factors of every higher power. -/
theorem not_fits_of_square {x : Int} {n : Nat} (h : ¬Fits (m * m)) (hx : x ≠ 0) (hn : 0 < n) :
    ¬Fits (x * (m * m) ^ n) := by
  obtain ⟨n, rfl⟩ := Nat.exists_eq_add_of_lt hn
  rw [pow_succ, ← mul_assoc]
  exact not_fits_mul_square h (mul_ne_zero hx (square_pow_pos (ne_zero_of_square h) _).ne')

section

variable {acc a : Int64} (n : Nat)

theorem mul_lowest :
    (if n % 2 = 1 then mul acc a else some acc) = fit (acc.toInt * lowest a.toInt n) := by
  unfold lowest
  split
  · rfl
  · rw [mul_one, fit_toInt]

/-- A base of zero brings everything into range, so what is out of range stays
so with the squares that follow. -/
theorem not_fits_of_lowest (h : ¬Fits (acc.toInt * lowest a.toInt n)) (half : Nat) :
    ¬Fits (acc.toInt * lowest a.toInt n * (a.toInt * a.toInt) ^ half) := by
  have ha : a.toInt ≠ 0 := by
    intro hzero
    apply h
    unfold lowest
    split
    · rw [hzero, mul_zero]
      decide
    · rw [mul_one]
      exact fits_toInt acc
  exact not_fits_mul h (square_pow_pos ha half)

/-- Powers by squaring are exact: nothing that fits is reported as missing. A
product is zero only if the base is, and then nothing is ever out of range. -/
theorem powFrom_eq (hacc : a.toInt ≠ 0 → acc.toInt ≠ 0) :
    powFrom acc a n = fit (acc.toInt * a.toInt ^ n) := by
  induction n using Nat.strongRecOn generalizing acc a with
  | ind n ih =>
      rw [powFrom, mul_lowest, pow_eq_halves, ← mul_assoc]
      by_cases hlowest : Fits (acc.toInt * lowest a.toInt n)
      · obtain ⟨next, hfit, hproduct⟩ := exists_fit hlowest
        have hnext : a.toInt ≠ 0 → next.toInt ≠ 0 := by
          intro ha
          rw [hproduct]
          exact mul_ne_zero (hacc ha) (lowest_ne_zero ha n)
        rw [hfit, Option.bind_some, ← hproduct]
        by_cases hn : n < 2
        · rw [if_pos hn, Nat.div_eq_of_lt hn, pow_zero, mul_one, fit_toInt]
        rw [if_neg hn]
        unfold mul
        by_cases hsquare : Fits (a.toInt * a.toInt)
        · obtain ⟨square, hfit, hsquared⟩ := exists_fit hsquare
          rw [hfit, Option.bind_some, ← hsquared]
          apply ih (n / 2) (by omega)
          rw [hsquared]
          exact fun h => hnext (left_ne_zero_of_mul h)
        · have hnot := not_fits_of_square hsquare (hnext (ne_zero_of_square hsquare))
            (show 0 < n / 2 by omega)
          rw [fit_eq_none hsquare, Option.bind_none, fit_eq_none hnot]
      · rw [fit_eq_none hlowest, Option.bind_none, fit_eq_none (not_fits_of_lowest n hlowest _)]

end

theorem pow_eq (a : Int64) (n : Nat) : pow a n = fit (a.toInt ^ n) := by
  have hone : (1 : Int64).toInt = 1 := rfl
  unfold pow
  rw [powFrom_eq n (fun _ => by decide), hone, one_mul]

end Checked

namespace Coercion

open Checked Value

/-- Integers need not be brought together. -/
theorem power_integers (k : Coercion) (a b : Int64) :
    k.power (.integer a) (.integer b)
      = if 0 ≤ b.toInt ∧ b.toInt < exponentBound then orOverflow "^" (pow a b.toInt.toNat)
        else .ok (.float ((floatOf a).pow (floatOf b))) :=
  rfl

-- ============================================================ main result

/-- An integer to a power from zero up to the bound is exact or reported, with
every coercion. From the bound on it is a float. -/
theorem integer_power (k : Coercion) (a b : Int64) (hb : 0 ≤ b.toInt) :
    let result := k.operations.binary .power (.integer a) (.integer b)
    (b.toInt < exponentBound → Exact (a.toInt ^ b.toInt.toNat) result)
      ∧ (exponentBound ≤ b.toInt → result = .ok (.float ((floatOf a).pow (floatOf b)))) := by
  intro result
  have hresult : result = k.power (.integer a) (.integer b) := rfl
  rw [hresult, power_integers]
  constructor
  · intro hless
    rw [if_pos ⟨hb, hless⟩, pow_eq]
    exact exact_orOverflow "^" _
  · intro hle
    exact if_neg (by omega)

/-- The last power of -2 that 64 bits hold, for which the square of 2^32 is not
taken, and the next one, for which it is. -/
theorem integer_power_last :
    strict.operations.binary .power (.integer (-2)) (.integer 63)
        = .ok (.integer Int64.minValue)
      ∧ Fails .unsupportedOperation
        (strict.operations.binary .power (.integer (-2)) (.integer 64)) := by
  obtain ⟨hlast, -⟩ := integer_power strict (-2) 63 (by decide)
  obtain ⟨hnext, -⟩ := integer_power strict (-2) 64 (by decide)
  obtain ⟨c, hc, hresult⟩ := (hlast (by decide)).exact (by decide)
  have hleast : c = Int64.minValue := by
    apply Int64.toInt_inj.1
    rw [hc]
    decide
  rw [hleast] at hresult
  exact ⟨hresult, (hnext (by decide)).reported (by decide)⟩

/-- One to the power of the bound is one, which 64 bits hold, and a float comes
out: so powers are not always exact. -/
theorem power_not_exact :
    (1 : Int) ^ exponentBound.toNat = 1
      ∧ strict.operations.binary .power (.integer 1) (.integer 4294967296)
        = .ok (.float ((floatOf 1).pow (floatOf 4294967296)))
      ∧ lenient.operations.binary .power (.integer 1) (.integer 4294967296)
        = .ok (.float ((floatOf 1).pow (floatOf 4294967296)))
      ∧ ¬∀ a b : Int64, 0 ≤ b.toInt → Exact (a.toInt ^ b.toInt.toNat)
        (strict.operations.binary .power (.integer a) (.integer b)) := by
  have hfloat : ∀ k : Coercion, k.operations.binary .power (.integer 1) (.integer 4294967296)
      = .ok (.float ((floatOf 1).pow (floatOf 4294967296))) := fun k => rfl
  refine ⟨one_pow _, hfloat strict, hfloat lenient, fun hall => ?_⟩
  have hexact := hall 1 4294967296 (by decide)
  have hone : (1 : Int64).toInt = 1 := rfl
  rw [hone, one_pow, hfloat] at hexact
  obtain ⟨c, -, hc⟩ := hexact.exact (by decide)
  cases hc

end Coercion

end Formula
