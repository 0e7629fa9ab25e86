/-
Arithmetic on 64-bit signed integers that is exact or says so. Every
operation is the mathematical one on `Int` followed by `fit`, which finds
the word that stands for a number when there is one; a power is a row of
products, each of which has to fit. Nothing wraps.
-/

namespace Formula.Checked

/-- The least number that 64 bits hold. -/
def least : Int := -9223372036854775808

/-- The greatest number that 64 bits hold. -/
def greatest : Int := 9223372036854775807

/-- The word for a number that has one. -/
def fit (n : Int) : Option Int64 :=
  if least ≤ n ∧ n ≤ greatest then some (Int64.ofInt n) else none

def add (a b : Int64) : Option Int64 := fit (a.toInt + b.toInt)

def sub (a b : Int64) : Option Int64 := fit (a.toInt - b.toInt)

def mul (a b : Int64) : Option Int64 := fit (a.toInt * b.toInt)

def neg (a : Int64) : Option Int64 := fit (-a.toInt)

def abs (a : Int64) : Option Int64 := fit a.toInt.natAbs

/-- The quotient toward zero, for a divisor other than zero. -/
def div (a b : Int64) : Option Int64 := fit (a.toInt.tdiv b.toInt)

/-- The remainder of the quotient toward zero, for a divisor other than
zero. It is reported as missing together with the quotient, that is for the
least integer and -1. -/
def rem (a b : Int64) : Option Int64 :=
  (div a b).bind fun _ => fit (a.toInt.tmod b.toInt)

/-- `acc` times the `n`-th power of `a`, by squaring from the lowest bit of `n`.
A square is taken only while bits are left above, so that it is always used. -/
def powFrom (acc a : Int64) (n : Nat) : Option Int64 :=
  (if n % 2 = 1 then mul acc a else some acc).bind fun acc =>
    if n < 2 then some acc else (mul a a).bind fun square => powFrom acc square (n / 2)
termination_by n

/-- A power. -/
def pow (a : Int64) (n : Nat) : Option Int64 := powFrom 1 a n

/-- The bits moved left; the amount must be less than the width. -/
def shiftLeft (a : Int64) (n : Nat) : Option Int64 :=
  if n < 64 then some (a <<< Int64.ofNat n) else none

/-- The bits moved right under the sign; the amount must be less than the
width. -/
def shiftRight (a : Int64) (n : Nat) : Option Int64 :=
  if n < 64 then some (a >>> Int64.ofNat n) else none

-- ============================================================== the word

/-- A word stands for itself. -/
@[simp] theorem fit_toInt (a : Int64) : fit a.toInt = some a := by
  have hlo := a.le_toInt
  have hhi := a.toInt_lt
  have h : least ≤ a.toInt ∧ a.toInt ≤ greatest := by
    simp only [least, greatest]
    omega
  rw [fit, if_pos h, Int64.ofInt_toInt]

/-- A number has a word exactly when it is in range, and then the word
stands for it. -/
theorem fit_eq_some_iff {n : Int} {a : Int64} :
    fit n = some a ↔ a.toInt = n ∧ least ≤ n ∧ n ≤ greatest := by
  constructor
  · intro h
    unfold fit at h
    split at h
    · next hn =>
      cases h
      refine ⟨Int64.toInt_ofInt_of_le ?_ ?_, hn⟩ <;> simp only [least, greatest] at hn <;> omega
    · cases h
  · rintro ⟨rfl, -⟩
    exact fit_toInt a

theorem fit_eq_none_iff {n : Int} : fit n = none ↔ n < least ∨ greatest < n := by
  unfold fit
  split <;> simp <;> omega

end Formula.Checked
