/-
Arithmetic on integers, with either coercion. A result is the exact one where
64 bits hold it, and a report that they do not where they do not (`Exact`).
Integers have met already, so each operation is its checked operation on
words (`arithmetic_integers`), which is the operation of mathematics and then
`fit`.

Main statement: every operation is exact in this sense, quotients and
remainders for divisors other than zero, with one exception
(`integer_arithmetic`). The exception is the remainder of the least integer
by -1. It is zero, but it is found together with the quotient, which is out
of range, and what is reported is the quotient (`Checked.rem_eq_none_iff`).
-/
import Formula.Expr.StandardLibrary

namespace Formula

-- ============================================================= the range

namespace Checked

/-- Whether 64 bits hold a number. -/
def Fits (n : Int) : Prop := least ≤ n ∧ n ≤ greatest

instance (n : Int) : Decidable (Fits n) := inferInstanceAs (Decidable (least ≤ n ∧ n ≤ greatest))

variable {m n : Int}

theorem fits_toInt (a : Int64) : Fits a.toInt :=
  (fit_eq_some_iff.1 (fit_toInt a)).2

theorem exists_fit (h : Fits n) : ∃ a, fit n = some a ∧ a.toInt = n := by
  have hfit : fit n = some (Int64.ofInt n) := if_pos h
  exact ⟨_, hfit, (fit_eq_some_iff.1 hfit).1⟩

theorem fit_eq_none (h : ¬Fits n) : fit n = none := if_neg h

/-- A number nearer to zero than one that fits, fits as well. -/
theorem fits_of_natAbs_lt (h : m.natAbs < n.natAbs) (hn : Fits n) : Fits m := by
  unfold Fits least greatest at *
  omega

/-- The quotient of a number that fits does too, but for the opposite of the
least one. -/
theorem fits_tdiv_iff (hm : Fits m) (hn : n ≠ 0) :
    Fits (m.tdiv n) ↔ ¬(m = least ∧ n = -1) := by
  by_cases hone : n = 1
  · subst hone
    simpa using hm
  by_cases hminus : n = -1
  · subst hminus
    rw [Int.tdiv_neg, Int.tdiv_one]
    unfold Fits least greatest at *
    omega
  -- any other divisor halves the number at least
  have hquotient : Fits (m.tdiv n) := by
    by_cases hzero : m = 0
    · subst hzero
      rwa [Int.zero_tdiv]
    · refine fits_of_natAbs_lt ?_ hm
      rw [Int.natAbs_tdiv]
      apply Nat.div_lt_self
      · omega
      · omega
  exact ⟨fun _ h => hminus h.2, fun _ => hquotient⟩

/-- The remainder of a number that fits does too. -/
theorem fits_tmod (hm : Fits m) : Fits (m.tmod n) := by
  have habs : (m.tmod n).natAbs ≤ m.natAbs := by
    rw [Int.natAbs_tmod]
    exact Nat.mod_le _ _
  -- the remainder has the sign of the number
  have hpositive : 0 ≤ m → 0 ≤ m.tmod n := Int.tmod_nonneg n
  have hnegative : m ≤ 0 → m.tmod n ≤ 0 := by
    intro h
    have hopposite : 0 ≤ (-m).tmod n := Int.tmod_nonneg n (by omega)
    rw [Int.neg_tmod] at hopposite
    omega
  unfold Fits least greatest at *
  omega

variable {a b : Int64}

theorem toInt_ne_zero (h : b ≠ 0) : b.toInt ≠ 0 := by
  intro hzero
  exact h (Int64.toInt_inj.1 hzero)

/-- A remainder is reported as missing where the quotient is. -/
theorem rem_eq_none_iff (hb : b ≠ 0) : rem a b = none ↔ a.toInt = least ∧ b.toInt = -1 := by
  have hquotient := fits_tdiv_iff (fits_toInt a) (toInt_ne_zero hb)
  obtain ⟨r, hr, -⟩ := exists_fit (fits_tmod (fits_toInt a) (n := b.toInt))
  unfold rem div
  by_cases hfits : Fits (a.toInt.tdiv b.toInt)
  · obtain ⟨q, hq, -⟩ := exists_fit hfits
    rw [hq, Option.bind_some, hr]
    simpa using hquotient.1 hfits
  · rw [fit_eq_none hfits, Option.bind_none]
    simpa using mt hquotient.2 hfits

/-- Elsewhere it is the remainder. -/
theorem rem_eq_fit (hb : b ≠ 0) (h : ¬(a.toInt = least ∧ b.toInt = -1)) :
    rem a b = fit (a.toInt.tmod b.toInt) := by
  obtain ⟨q, hq, -⟩ := exists_fit ((fits_tdiv_iff (fits_toInt a) (toInt_ne_zero hb)).2 h)
  unfold rem div
  rw [hq, Option.bind_some]

end Checked

open Checked

-- =========================================================== exact results

/-- What it is for a result to be a fault of some code. -/
def Fails (code : Code) (x : Outcome) : Prop := ∃ fault, x = .error fault ∧ fault.cause.code = code

theorem Fails.unique {code code' : Code} {x : Outcome} (h : Fails code x) (h' : Fails code' x) :
    code = code' := by
  obtain ⟨fault, rfl, rfl⟩ := h
  obtain ⟨fault', hfault, rfl⟩ := h'
  cases hfault
  rfl

/-- What it is for a result to be a number if 64 bits hold it, and else a
report that they do not. -/
structure Exact (n : Int) (x : Outcome) : Prop where
  exact : Fits n → ∃ c : Int64, c.toInt = n ∧ x = .ok (.integer c)
  reported : ¬Fits n → Fails .unsupportedOperation x

/-- What is exact is no division by zero. -/
theorem Exact.not_divisionByZero {n : Int} {x : Outcome} (h : Exact n x) :
    ¬Fails .divisionByZero x := by
  intro hfails
  by_cases hfits : Fits n
  · obtain ⟨c, -, rfl⟩ := h.exact hfits
    obtain ⟨fault, hfault, -⟩ := hfails
    cases hfault
  · cases hfails.unique (h.reported hfits)

namespace Coercion

theorem exact_orOverflow (operation : String) (n : Int) : Exact n (orOverflow operation (fit n)) where
  exact h := by
    obtain ⟨c, hfit, hc⟩ := exists_fit h
    exact ⟨c, hc, by rw [hfit]; rfl⟩
  reported h := by
    rw [fit_eq_none h]
    exact ⟨_, rfl, rfl⟩

-- ============================================================= operations

/-- Operands that have met in one kind are given to what is done with operands
of one kind. -/
theorem arithmetic_integers {k : Coercion} {a b : Int64}
    (h : k.meet (.integer a) (.integer b) = .ok (.integer a, .integer b))
    (scaled : Scaled → Scaled → Option Scaled) (floats : Float → Float → Float)
    (common : Value → Value → Outcome) :
    k.arithmetic scaled floats common (.integer a) (.integer b)
      = common (.integer a) (.integer b) := by
  unfold arithmetic mixed?
  rw [h]
  rfl

theorem exact_arithmetic {k : Coercion} {a b : Int64} {n : Int}
    {scaled : Scaled → Scaled → Option Scaled} {floats : Float → Float → Float}
    {common : Value → Value → Outcome}
    (h : k.meet (.integer a) (.integer b) = .ok (.integer a, .integer b))
    (hcommon : Exact n (common (.integer a) (.integer b))) :
    Exact n (k.arithmetic scaled floats common (.integer a) (.integer b)) := by
  rwa [arithmetic_integers h]

theorem exact_abs (a : Int64) (ops : Operations) :
    Exact a.toInt.natAbs (Routine.abs.run [.integer a] ops) := by
  dsimp only [Routine.abs, Routine.ofOne, Checked.abs]
  by_cases hfits : Fits a.toInt.natAbs
  · obtain ⟨c, hfit, hc⟩ := exists_fit hfits
    rw [hfit]
    exact ⟨fun _ => ⟨c, hc, rfl⟩, fun h => absurd hfits h⟩
  · rw [fit_eq_none hfits]
    exact ⟨fun h => absurd h hfits, fun _ => ⟨_, rfl, rfl⟩⟩

/-- The coercions bring integers together as they are. -/
theorem meet_integers {k : Coercion} (hk : k = strict ∨ k = lenient) (a b : Int64) :
    k.meet (.integer a) (.integer b) = .ok (.integer a, .integer b) := by
  obtain rfl | rfl := hk
  · rfl
  · rfl

section

variable {k : Coercion} {a b : Int64}
  (h : k.meet (.integer a) (.integer b) = .ok (.integer a, .integer b))

include h

theorem divide_integers : k.divide (.integer a) (.integer b)
    = if b = 0 then .error (.of .divisionByZero) else orOverflow "/" (Checked.div a b) :=
  arithmetic_integers h _ _ _

theorem remainder_integers : k.remainder (.integer a) (.integer b)
    = if b = 0 then .error (.of .divisionByZero) else orOverflow "%" (Checked.rem a b) :=
  arithmetic_integers h _ _ _

theorem exact_divide (hb : b ≠ 0) :
    Exact (a.toInt.tdiv b.toInt) (k.divide (.integer a) (.integer b)) := by
  rw [divide_integers h, if_neg hb]
  exact exact_orOverflow "/" _

theorem exact_remainder (hb : b ≠ 0) (hleast : ¬(a.toInt = least ∧ b.toInt = -1)) :
    Exact (a.toInt.tmod b.toInt) (k.remainder (.integer a) (.integer b)) := by
  rw [remainder_integers h, if_neg hb, rem_eq_fit hb hleast]
  exact exact_orOverflow "%" _

/-- The remainder of the least integer by -1 is reported. -/
theorem fails_remainder (hleast : a.toInt = least ∧ b.toInt = -1) :
    Fails .unsupportedOperation (k.remainder (.integer a) (.integer b)) := by
  have hb : b ≠ 0 := by
    rintro rfl
    cases hleast.2
  rw [remainder_integers h, if_neg hb, (rem_eq_none_iff hb).2 hleast]
  exact ⟨_, rfl, rfl⟩

/-- Division by zero is what fails as such. -/
theorem divisionByZero_divide_iff :
    Fails .divisionByZero (k.divide (.integer a) (.integer b)) ↔ b = 0 := by
  by_cases hb : b = 0
  · rw [divide_integers h, if_pos hb]
    exact ⟨fun _ => hb, fun _ => ⟨_, rfl, rfl⟩⟩
  · exact ⟨fun hfails => absurd hfails (exact_divide h hb).not_divisionByZero,
      fun hzero => absurd hzero hb⟩

theorem divisionByZero_remainder_iff :
    Fails .divisionByZero (k.remainder (.integer a) (.integer b)) ↔ b = 0 := by
  by_cases hb : b = 0
  · rw [remainder_integers h, if_pos hb]
    exact ⟨fun _ => hb, fun _ => ⟨_, rfl, rfl⟩⟩
  · have hother : ¬Fails .divisionByZero (k.remainder (.integer a) (.integer b)) := by
      by_cases hleast : a.toInt = least ∧ b.toInt = -1
      · intro hfails
        cases hfails.unique (fails_remainder h hleast)
      · exact (exact_remainder h hb hleast).not_divisionByZero
    exact ⟨fun hfails => absurd hfails hother, fun hzero => absurd hzero hb⟩

/-- A quotient and a remainder that are both found belong together. -/
theorem eq_quotient_mul_add_remainder {q r : Int64}
    (hq : k.divide (.integer a) (.integer b) = .ok (.integer q))
    (hr : k.remainder (.integer a) (.integer b) = .ok (.integer r)) :
    a.toInt = q.toInt * b.toInt + r.toInt := by
  have hb : b ≠ 0 := by
    intro hzero
    rw [divide_integers h, if_pos hzero] at hq
    cases hq
  have hleast : ¬(a.toInt = least ∧ b.toInt = -1) := by
    intro hleast
    obtain ⟨fault, hfault, -⟩ := fails_remainder h hleast
    rw [hr] at hfault
    cases hfault
  have hquotient : q.toInt = a.toInt.tdiv b.toInt := by
    obtain ⟨c, hc, hdivide⟩ := (exact_divide h hb).exact
      ((fits_tdiv_iff (fits_toInt a) (toInt_ne_zero hb)).2 hleast)
    rw [hq] at hdivide
    cases hdivide
    exact hc
  have hremainder : r.toInt = a.toInt.tmod b.toInt := by
    obtain ⟨c, hc, hrest⟩ := (exact_remainder h hb hleast).exact (fits_tmod (fits_toInt a))
    rw [hr] at hrest
    cases hrest
    exact hc
  rw [hquotient, hremainder, Int.mul_comm, Int.mul_tdiv_add_tmod]

end

-- ============================================================ main result

/-- Integer arithmetic is exact or reported, with either coercion. Sums,
differences, products, opposites and absolute values are; quotients toward zero
are where the divisor is not zero, and division by zero is reported as such and
nothing else is. So are remainders, which always fit, except that the one of the
least integer by -1 is reported as out of range. A quotient and a remainder
that are both found give the dividend back. -/
theorem integer_arithmetic {k : Coercion} (hk : k = strict ∨ k = lenient) (a b : Int64) :
    let ops := k.operations
    let quotient := ops.binary .divide (.integer a) (.integer b)
    let remainder := ops.binary .remainder (.integer a) (.integer b)
    Exact (a.toInt + b.toInt) (ops.binary .add (.integer a) (.integer b))
      ∧ Exact (a.toInt - b.toInt) (ops.binary .subtract (.integer a) (.integer b))
      ∧ Exact (a.toInt * b.toInt) (ops.binary .multiply (.integer a) (.integer b))
      ∧ Exact (-a.toInt) (ops.unary .negative (.integer a))
      ∧ (∃ abs, Library.standard.function? "Abs" = some abs
        ∧ Exact a.toInt.natAbs (abs [.integer a] ops))
      ∧ (Fails .divisionByZero quotient ↔ b = 0)
      ∧ (Fails .divisionByZero remainder ↔ b = 0)
      ∧ (b ≠ 0 →
        Exact (a.toInt.tdiv b.toInt) quotient
          ∧ Fits (a.toInt.tmod b.toInt)
          ∧ (¬(a.toInt = least ∧ b.toInt = -1) → Exact (a.toInt.tmod b.toInt) remainder)
          ∧ (a.toInt = least ∧ b.toInt = -1 → Fails .unsupportedOperation remainder))
      ∧ ∀ q r, quotient = .ok (.integer q) → remainder = .ok (.integer r) →
        a.toInt = q.toInt * b.toInt + r.toInt := by
  intro ops quotient remainder
  have h := meet_integers hk a b
  have hsum : Exact (a.toInt + b.toInt) (k.add (.integer a) (.integer b)) :=
    exact_arithmetic h (exact_orOverflow "+" _)
  have hdifference : Exact (a.toInt - b.toInt) (k.subtract (.integer a) (.integer b)) :=
    exact_arithmetic h (exact_orOverflow "-" _)
  have hproduct : Exact (a.toInt * b.toInt) (k.multiply (.integer a) (.integer b)) :=
    exact_arithmetic h (exact_orOverflow "*" _)
  refine ⟨hsum, hdifference, hproduct, exact_orOverflow "-" _, ⟨_, rfl, exact_abs a ops⟩,
    divisionByZero_divide_iff h, divisionByZero_remainder_iff h, ?_,
    fun q r => eq_quotient_mul_add_remainder h⟩
  intro hb
  exact ⟨exact_divide h hb, fits_tmod (fits_toInt a), exact_remainder h hb, fails_remainder h⟩

/-- Seven below zero by two, and the least integer by -1, with the coercion
that mixes kinds. -/
theorem integer_arithmetic_signs :
    let ops := lenient.operations
    (-7 : Int) = (-3) * 2 + -1
      ∧ ops.binary .divide (.integer (-7)) (.integer 2) = .ok (.integer (-3))
      ∧ ops.binary .remainder (.integer (-7)) (.integer 2) = .ok (.integer (-1))
      ∧ Fails .unsupportedOperation
        (ops.binary .divide (.integer Int64.minValue) (.integer (-1)))
      ∧ Fails .unsupportedOperation
        (ops.binary .remainder (.integer Int64.minValue) (.integer (-1))) := by
  intro ops
  have hquotient : ops.binary .divide (.integer (-7)) (.integer 2) = .ok (.integer (-3)) := rfl
  have hremainder : ops.binary .remainder (.integer (-7)) (.integer 2) = .ok (.integer (-1)) := rfl
  obtain ⟨-, -, -, -, -, -, -, -, hidentity⟩ := integer_arithmetic (.inr rfl) (-7) 2
  obtain ⟨-, -, -, -, -, -, -, hleast, -⟩ := integer_arithmetic (.inr rfl) Int64.minValue (-1)
  obtain ⟨hexact, -, -, hreported⟩ := hleast (by decide)
  exact ⟨hidentity (-3) (-1) hquotient hremainder, hquotient, hremainder,
    hexact.reported (by decide), hreported (by decide)⟩

/-- The remainder of the least integer by -1 is zero, which 64 bits hold, and it
is not what comes out: so remainders are not always exact. -/
theorem remainder_not_exact :
    Int64.minValue.toInt.tmod (-1) = 0
      ∧ strict.operations.binary .remainder (.integer Int64.minValue) (.integer (-1))
        = .error (.of (.overflow "%"))
      ∧ lenient.operations.binary .remainder (.integer Int64.minValue) (.integer (-1))
        = .error (.of (.overflow "%"))
      ∧ ¬∀ a b : Int64, b ≠ 0 → Exact (a.toInt.tmod b.toInt)
        (strict.operations.binary .remainder (.integer a) (.integer b)) := by
  have hreport : strict.operations.binary .remainder (.integer Int64.minValue) (.integer (-1))
      = .error (.of (.overflow "%")) := rfl
  refine ⟨by decide, hreport, rfl, fun hall => ?_⟩
  obtain ⟨c, -, hc⟩ := (hall Int64.minValue (-1) (by decide)).exact (by decide)
  rw [hreport] at hc
  cases hc

end Coercion

end Formula
