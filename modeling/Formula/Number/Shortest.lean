/-
The fewest decimal digits that read back as a given float, and among
numbers of that many digits the one nearest to it.

A float `m * 2 ^ e` stands for the reals between the midpoints to its two
neighbours, the midpoints included exactly when `m` is even. In units of
`2 ^ (e - 2)` the float is `4 * m`, the upper midpoint `4 * m + 2` and the
lower one `4 * m - 2`, or `4 * m - 1` below a power of two, where floats
lie twice as dense. The decimal grids `10 ^ k` are tried from the coarsest
down; on each, the two points next to the float are the only ones to try,
because a grid with a point in the interval has one of these in it.
-/
import Formula.Number.Binary
import Formula.Number.Digits

namespace Formula

/-- What to do when both neighbours on the grid are equally near. -/
inductive Tie where
  | toEven
  | up
  deriving Repr, DecidableEq

namespace Shortest

/-- The interval of reals that a float stands for, in units of
`2 ^ unit`. -/
structure Interval where
  low : Nat
  value : Nat
  high : Nat
  closed : Bool
  unit : Int
  deriving Repr

/-- The interval of a number that is not zero. -/
def intervalOf (b : Binary) : Interval where
  low :=
    if b.mantissa = twoToThe 52 ∧ -1074 < b.exponent then 4 * b.mantissa - 1
    else 4 * b.mantissa - 2
  value := 4 * b.mantissa
  high := 4 * b.mantissa + 2
  closed := b.mantissa % 2 = 0
  unit := b.exponent - 2

/-- A step of the grid `10 ^ k`, measured so that it can be compared with
`unitWeight`. -/
def gridWeight (i : Interval) (k : Int) : Nat :=
  tenToThe k.toNat * twoToThe (-i.unit).toNat

/-- A unit of the interval, measured alike. -/
def unitWeight (i : Interval) (k : Int) : Nat :=
  twoToThe i.unit.toNat * tenToThe (-k).toNat

/-- Whether the grid point `c * 10 ^ k` lies in the interval. -/
def holds (i : Interval) (k : Int) (c : Nat) : Bool :=
  let p := c * gridWeight i k
  let w := unitWeight i k
  if i.closed then i.low * w ≤ p && p ≤ i.high * w else i.low * w < p && p < i.high * w

/-- The nearer of the two grid points around the value that lie in the
interval. -/
def onGrid (tie : Tie) (i : Interval) (k : Int) : Option Nat :=
  let g := gridWeight i k
  let v := i.value * unitWeight i k
  let c := v / g
  match holds i k c, holds i k (c + 1) with
  | false, false => none
  | true, false => some c
  | false, true => some (c + 1)
  | true, true =>
    if 2 * v < (2 * c + 1) * g then some c
    else if (2 * c + 1) * g < 2 * v then some (c + 1)
    else match tie with
      | .up => some (c + 1)
      | .toEven => some (if c % 2 = 0 then c else c + 1)

/-- The least `j`, from `j` on, for which `num * 10 ^ j` reaches `den`;
`num` is given with that power already applied. -/
def liftFrom : Nat → Nat → Nat → Nat → Nat
  | 0, _, _, j => j
  | fuel + 1, num, den, j => if den ≤ num then j else liftFrom fuel (num * 10) den (j + 1)

/-- The power of ten of the first digit of the value. -/
def leadingPower (i : Interval) : Int :=
  let num := i.value * twoToThe i.unit.toNat
  let den := twoToThe (-i.unit).toNat
  if den ≤ num then ((digitsOf (num / den)).length : Int) - 1
  else -(liftFrom 400 num den 0 : Nat)

/-- The first hit on the grids from `10 ^ k` down, `n` of them. -/
def search (tie : Tie) (i : Interval) : Nat → Int → Decimal
  | 0, k => ⟨i.value * unitWeight i k / gridWeight i k, k⟩
  | n + 1, k =>
    match onGrid tie i k with
    | some c => ⟨c, k⟩
    | none => search tie i n (k - 1)

/-- The shortest digits of a number that is not zero. Seventeen digits
always suffice. -/
def digits (tie : Tie) (b : Binary) : Decimal :=
  let i := intervalOf b
  (search tie i 17 (leadingPower i)).trim 20

end Shortest

end Formula
