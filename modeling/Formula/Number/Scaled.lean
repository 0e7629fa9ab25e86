/-
Decimal fractions of 96 bits: a sign, a coefficient below 2^96 and a scale
of at most 28, standing for `coefficient / 10 ^ scale`. Mixed arithmetic on
integers and floats is done on them, so that one plus a tenth is a tenth
more than one and not the sum of two binary approximations.

A float is taken over to about 16 significant digits. Every operation says
when its result does not fit; sums and products drop just as many digits as
they must, rounding once to even. Quotients come from long division, nine
digits at a time, and may keep zeros at the end, which the rounding of
`toFloat` depends on.
-/
import Formula.Number.Binary

namespace Formula

/-- A scaled decimal fraction. -/
structure Scaled where
  negative : Bool
  coefficient : Nat
  scale : Nat
  deriving Repr, DecidableEq

namespace Scaled

/-- The first coefficient that is too large. -/
def bound : Nat := twoToThe 96

def zero : Scaled := ⟨false, 0, 0⟩

/-- A fraction whose zero has no sign. -/
def make (negative : Bool) (coefficient scale : Nat) : Scaled :=
  ⟨negative && coefficient != 0, coefficient, scale⟩

/-- A 64-bit integer, exactly. -/
def ofInteger (n : Int64) : Scaled := make (n.toInt < 0) n.toInt.natAbs 0

-- ========================================================= from a float

/-- A coefficient under a power of ten, on the way from a float. -/
structure Draft where
  coefficient : Nat
  power : Int

namespace Draft

/-- `n` factors of one half: an even coefficient is halved, another one is
multiplied by five as long as there is room, and halved with a loss after
that. -/
def halve : Nat → Draft → Draft
  | 0, d => d
  | n + 1, d =>
    if d.coefficient % 2 = 0 then halve n ⟨d.coefficient / 2, d.power + 1⟩
    else if 5 * d.coefficient < bound then halve n ⟨5 * d.coefficient, d.power⟩
    else halve n ⟨d.coefficient / 2, d.power + 1⟩

/-- `n` factors of two: the coefficient is doubled as long as there is
room, and divided by five after that. It fails when the power of ten is
out of reach. -/
def double : Nat → Draft → Option Draft
  | 0, d => some d
  | n + 1, d =>
    if d.coefficient < twoToThe 95 then double n ⟨2 * d.coefficient, d.power - 1⟩
    else if (n + 1 : Int) < 2 * d.power then none
    else double n ⟨d.coefficient / 5, d.power⟩

/-- A positive power of ten multiplied in, `n` factors; it fails when the
coefficient gets too large. -/
def spread : Nat → Draft → Option Draft
  | 0, d => some d
  | n + 1, d =>
    if 10 * d.coefficient < bound then spread n ⟨10 * d.coefficient, d.power - 1⟩ else none

/-- A digit dropped, a dropped 5 or more counting as one. -/
def dropDigit (d : Draft) : Draft :=
  ⟨d.coefficient / 10 + (if 5 ≤ d.coefficient % 10 then 1 else 0), d.power + 1⟩

/-- Digits dropped until the scale is at most 28, at most `n` of them; a
coefficient that runs out is zero. -/
def limit : Nat → Draft → Draft
  | 0, d => d
  | n + 1, d =>
    if -28 ≤ d.power then d
    else if d.coefficient < 10 then ⟨0, 0⟩
    else limit n d.dropDigit

/-- Digits dropped until the coefficient is below 2^52 or the scale is
zero, at most `n` of them. -/
def shorten : Nat → Draft → Draft
  | 0, d => d
  | n + 1, d =>
    if d.power < 0 ∧ twoToThe 52 ≤ d.coefficient then shorten n d.dropDigit else d

/-- Trailing zeros dropped while there is a scale, at most `n` of them. -/
def strip : Nat → Draft → Draft
  | 0, d => d
  | n + 1, d =>
    if d.power < 0 ∧ d.coefficient % 10 = 0 then strip n ⟨d.coefficient / 10, d.power + 1⟩ else d

end Draft

/-- The fraction that stands for a finite float of moderate size. -/
def ofFloat? (x : Float) : Option Scaled := do
  let b ← Binary.ofFloat? x
  if b.mantissa = 0 then return zero
  let d : Draft := ⟨b.mantissa, b.exponent⟩
  let d := Draft.halve (-b.exponent).toNat d
  let d ← Draft.double b.exponent.toNat d
  let d ← Draft.spread d.power.toNat d
  let d := Draft.limit (-d.power).toNat d
  let d := Draft.shorten (-d.power).toNat d
  let d := Draft.strip (-d.power).toNat d
  return make b.negative d.coefficient (-d.power).toNat

-- ============================================================= rounding

/-- A quotient rounded to the nearest integer, a half to the even one. -/
def roundDiv (n d : Nat) : Nat :=
  let q := n / d
  let r := n % d
  if 2 * r < d then q else if d < 2 * r then q + 1 else q + q % 2

/-- Drops at least `k` digits from a coefficient of scale `scale`, and just
so many that the rest is in range; `n` is how many more may go. -/
def fitFrom (negative : Bool) (m scale : Nat) : Nat → Nat → Option Scaled
  | 0, k =>
    if k ≤ scale ∧ roundDiv m (tenToThe k) < bound then
      some (make negative (roundDiv m (tenToThe k)) (scale - k))
    else none
  | n + 1, k =>
    if k ≤ scale ∧ roundDiv m (tenToThe k) < bound then
      some (make negative (roundDiv m (tenToThe k)) (scale - k))
    else fitFrom negative m scale n (k + 1)

/-- The exact fraction `m / 10 ^ scale` brought into range. -/
def fit (negative : Bool) (m scale : Nat) : Option Scaled :=
  fitFrom negative m scale scale (scale - 28)

-- =========================================================== arithmetic

/-- The coefficient, with its sign, at a larger scale. -/
def atScale (a : Scaled) (scale : Nat) : Int :=
  let m := (a.coefficient * tenToThe (scale - a.scale) : Nat)
  if a.negative then -(m : Int) else m

def negate (a : Scaled) : Scaled := make (!a.negative) a.coefficient a.scale

def add (a b : Scaled) : Option Scaled :=
  if a.coefficient = 0 then some b
  else if b.coefficient = 0 then some a
  else
    let scale := max a.scale b.scale
    let sum := a.atScale scale + b.atScale scale
    fit (sum < 0) sum.natAbs scale

def sub (a b : Scaled) : Option Scaled := add a b.negate

def mul (a b : Scaled) : Option Scaled :=
  if a.coefficient = 0 ∨ b.coefficient = 0 then some zero
  else fit (a.negative != b.negative) (a.coefficient * b.coefficient) (a.scale + b.scale)

/-- A quotient under way, brought to an end: `q` units of the last place and
`rest / den` of one more, rounded there or, where that is out of range, one
place before it. -/
def settle (den q rest scale : Nat) : Option (Nat × Nat) :=
  let num := q * den + rest
  if roundDiv num den < bound then some (roundDiv num den, scale)
  else if scale = 0 then none
  else some (roundDiv num (10 * den), scale - 1)

/-- How many digits, up to `n`, a coefficient has room for behind it. -/
def room (m : Nat) : Nat → Nat
  | 0 => 0
  | n + 1 => if m * tenToThe (n + 1) < bound then n + 1 else room m n

theorem room_le (m n : Nat) : room m n ≤ n := by
  induction n with
  | zero => exact Nat.le_refl 0
  | succ n ih =>
    simp only [room]
    split
    · exact Nat.le_refl _
    · exact Nat.le_succ_of_le ih

/-- Long division from a quotient `q` with the remainder `rest`, nine digits
at a time or as many as there is room for. It ends where nothing remains and
the scale is not negative, which may leave zeros at the end, and otherwise
where there is no room for a digit or the scale is 28. -/
def divideFrom (den q rest : Nat) (scale : Int) : Option (Nat × Nat) :=
  if rest = 0 ∧ 0 ≤ scale then some (q, scale.toNat)
  else
    let n := if rest = 0 then min 9 (-scale).toNat else room q (min 9 (28 - scale).toNat)
    if _ : n = 0 then if scale < 0 then none else settle den q rest scale.toNat
    else
      let num := rest * tenToThe n
      let next := q * tenToThe n + num / den
      if next < bound then divideFrom den next (num % den) (scale + n)
      else settle den next (num % den) (scale + n).toNat
termination_by (28 - scale).toNat
decreasing_by
  have := room_le q (min 9 (28 - scale).toNat)
  have : n ≤ (28 - scale).toNat := by
    simp only [n]
    split <;> omega
  omega

/-- Takes `k` zeros off the end, if there are as many and the scale allows
it. -/
def dropZeros (k : Nat) (m scale : Nat) : Nat × Nat :=
  if k ≤ scale ∧ m % tenToThe k = 0 then (m / tenToThe k, scale - k) else (m, scale)

/-- Takes eight zeros off the end as long as the last 32 bits are zero, at
most `n` times. -/
def dropEights : Nat → Nat → Nat → Nat × Nat
  | 0, m, scale => (m, scale)
  | n + 1, m, scale =>
    if m % twoToThe 32 = 0 ∧ 8 ≤ scale ∧ m % tenToThe 8 = 0 then
      dropEights n (m / tenToThe 8) (scale - 8)
    else (m, scale)

/-- A quotient with fewer zeros at the end: groups of eight, four, two and
one of them are tried in turn, so some may stay. -/
def reduce (m scale : Nat) : Nat × Nat :=
  let (m, scale) := dropEights 3 m scale
  let (m, scale) := dropZeros 4 m scale
  let (m, scale) := dropZeros 2 m scale
  dropZeros 1 m scale

/-- The quotient, exact or rounded at the last place that is in range. One
that is exact without further digits keeps its zeros. -/
def div (a b : Scaled) : Option Scaled :=
  let negative := a.negative != b.negative
  if b.coefficient = 0 then none
  else if a.coefficient = 0 then some zero
  else
    let rest := a.coefficient % b.coefficient
    (divideFrom b.coefficient (a.coefficient / b.coefficient) rest (a.scale - b.scale)).map
      fun (m, scale) =>
        let (m, scale) := if rest = 0 then (m, scale) else reduce m scale
        make negative m scale

/-- The remainder with the sign of the dividend. -/
def rem (a b : Scaled) : Option Scaled :=
  let scale := max a.scale b.scale
  let m := (a.atScale scale).natAbs
  let d := (b.atScale scale).natAbs
  if d = 0 then none
  else if m = 0 ∨ m = d then some zero
  else if m < d then some a
  else some (make a.negative (m % d) scale)

-- ============================================================ to a float

/-- The float of a fraction. The fractional part is divided on its own,
and the sum is rounded to as many places as the scale says. -/
def toFloat (a : Scaled) : Float :=
  let whole := Float.ofNat (a.coefficient / tenToThe a.scale)
  let part := Float.ofNat (a.coefficient % tenToThe a.scale) / Float.ofNat (tenToThe a.scale)
  let magnitude :=
    if a.scale = 0 ∨ part == 0.0 then whole
    else
      let p := powerOfTen a.scale
      ((whole + part) * p).round / p
  if a.negative then -magnitude else magnitude

end Scaled

end Formula
