/-
The exact value of a float. A finite float is a sign and a natural number
times a power of two; taking it apart and putting it together again are
done on the bits, so what is computed between the two is exact.

From this come the remainder of a division (always a float itself), and
the power of ten by repeated squaring, whose rounding is part of how values
are rounded to decimal places.
-/
import Formula.Number.Power

namespace Formula

/-- A finite binary number: `mantissa * 2 ^ exponent` under a sign. -/
structure Binary where
  negative : Bool
  mantissa : Nat
  exponent : Int
  deriving Repr, DecidableEq

namespace Binary

-- ============================================================== decoding

/-- The sign bit of a float; the sign of NaN means nothing. -/
def signBit (x : Float) : Bool := x.toBits >>> 63 == 1

/-- The parts of a finite float; nothing for infinities and NaN. The
mantissa is below 2^53, and at least 2^52 unless the exponent is -1074. -/
def ofFloat? (x : Float) : Option Binary :=
  let bits : Nat := x.toBits.toNat
  let field : Nat := bits / twoToThe 52 % twoToThe 11
  let fraction : Nat := bits % twoToThe 52
  if field = 2047 then none
  else if field = 0 then some ⟨signBit x, fraction, -1074⟩
  else some ⟨signBit x, fraction + twoToThe 52, (field : Int) - 1075⟩

/-- How far a mantissa can be moved left without passing 2^53, and without
taking the exponent below -1074. -/
def slack (b : Binary) : Nat := min (52 - b.mantissa.log2) (b.exponent + 1074).toNat

/-- The float of a number whose mantissa is below 2^53 and whose exponent
is at least -1074 and within range: the conversion is exact. -/
def toFloat (b : Binary) : Float :=
  let sign := if b.negative then twoToThe 63 else 0
  if b.mantissa = 0 then Float.ofBits (UInt64.ofNat sign)
  else
    let m := b.mantissa * twoToThe b.slack
    let field := if m < twoToThe 52 then 0 else (b.exponent - b.slack + 1075).toNat
    Float.ofBits (UInt64.ofNat (sign + field * twoToThe 52 + m % twoToThe 52))

-- =========================================================== arithmetic

/-- The remainder of two finite numbers, the divisor not zero, with the
sign of the dividend: exact, and never longer than either mantissa. -/
def rem (a b : Binary) : Binary :=
  let e := min a.exponent b.exponent
  let m := a.mantissa * twoToThe (a.exponent - e).toNat
  let d := b.mantissa * twoToThe (b.exponent - e).toNat
  ⟨a.negative, m % d, e⟩

end Binary

/-- The remainder of a division of floats, with the sign of the dividend:
exact for finite floats; an infinite divisor leaves the dividend as it is;
an infinite dividend or a divisor of zero has none. -/
def floatRem (x y : Float) : Float :=
  match Binary.ofFloat? x, Binary.ofFloat? y with
  | some a, some b =>
    if b.mantissa = 0 then 0.0 / 0.0 else if a.mantissa = 0 then x else (a.rem b).toFloat
  | some _, none => if y.isNaN then y else x
  | none, _ => 0.0 / 0.0

/-- A float without its fraction, toward zero. -/
def floatTrunc (x : Float) : Float := if x < 0.0 then x.ceil else x.floor

/-- `acc` times the `n`-th power of `a`, by squaring from the lowest bit. -/
def floatPowerFrom (acc a : Float) (n : Nat) : Float :=
  let acc := if n % 2 = 1 then acc * a else acc
  if n < 2 then acc else floatPowerFrom acc (a * a) (n / 2)
termination_by n

/-- A power of ten by squaring; a negative one is the reciprocal of its
opposite. -/
def powerOfTen (n : Int) : Float :=
  let p := floatPowerFrom 1.0 10.0 n.natAbs
  if n < 0 then 1.0 / p else p

end Formula
