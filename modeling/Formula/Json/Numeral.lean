/-
Numbers of JSON texts. An integer that fits 64 bits, with or without a sign,
is exact. Every other number is a float, computed quickly rather than
exactly: as many leading digits as 64 bits hold become a float, which is
then multiplied or divided by a power of ten. A number beyond the range of
floats is none.
-/
import Formula.Json.Basic
import Formula.Number.Reading

namespace Formula

namespace Json

/-- The parts of a number: the digits before and after the point, and the
exponent, of which a number may have the last two or not. -/
structure Numeral where
  negative : Bool
  whole : List Char
  fraction : Option (List Char)
  exponent : Option Int
  deriving Repr

namespace Numeral

-- =============================================================== the parts

/-- Digits before the point: a single zero, or digits that begin with
another one. -/
def whole? (cs : List Char) : Option (List Char) :=
  match leadingDigits cs with
  | [] => none
  | '0' :: _ :: _ => none
  | ds => some ds

/-- A point and digits, if a point is there; a point without digits is an
error. The digits come with the number of characters taken. -/
def fraction? (cs : List Char) : Option (Option (List Char) × Nat) :=
  match cs with
  | '.' :: r =>
    let ds := leadingDigits r
    if ds = [] then none else some (some ds, ds.length + 1)
  | _ => some (none, 0)

/-- An exponent, if there is one; an `e` without digits is an error. -/
def exponent? (cs : List Char) : Option (Option Int × Nat) :=
  match cs with
  | e :: r =>
    if e = 'e' ∨ e = 'E' then
      let (negative, ds) := signed r
      let digits := leadingDigits ds
      if digits = [] then none
      else
        let n : Int := numberOf digits
        some (some (if negative then -n else n), 1 + (r.length - ds.length) + digits.length)
    else some (none, 0)
  | [] => some (none, 0)

/-- The number at the front of a text and how many characters it takes. -/
def read? (cs : List Char) : Option (Numeral × Nat) := do
  let negative := cs.head? == some '-'
  let n := if negative then 1 else 0
  let whole ← whole? (cs.drop n)
  let n := n + whole.length
  let (fraction, k) ← fraction? (cs.drop n)
  let n := n + k
  let (exponent, k) ← Numeral.exponent? (cs.drop n)
  return (⟨negative, whole, fraction, exponent⟩, n + k)

-- =============================================================== the value

/-- The first number that 64 bits do not hold. -/
def wordBound : Nat := twoToThe 64

/-- Takes digits into a number as long as 64 bits hold it; the digits that
are left. -/
def absorb (s : Nat) : List Char → Nat × List Char
  | [] => (s, [])
  | d :: ds =>
    if 10 * s + digitValue d < wordBound then absorb (10 * s + digitValue d) ds else (s, d :: ds)

/-- The power of ten nearest to `10 ^ n`. -/
def tenTo (n : Nat) : Float := Decimal.toFloat ⟨1, n⟩

/-- A float divided by a power of ten, in steps that the range allows. -/
def lower (x : Float) (n : Nat) : Float :=
  if n ≤ 308 then x / tenTo n
  else if x == 0.0 then x
  else lower (x / tenTo 308) (n - 308)
termination_by n

/-- A float from leading digits and an exponent. -/
def scale? (s : Nat) (e : Int) : Option Float :=
  let x := Float.ofNat s
  if e < 0 then some (lower x e.natAbs)
  else if e ≤ 308 then
    let y := x * tenTo e.toNat
    if y.isInf then none else some y
  else if s = 0 then some x
  else none

/-- The greatest exponent that is looked at digit by digit. -/
def exponentBound : Int := 2147483648

/-- The magnitude of a number as a float. -/
def float? (n : Numeral) : Option Float :=
  let (s, left) := absorb 0 n.whole
  let fraction := n.fraction.getD []
  let (s, unread) := absorb s fraction
  let power : Int := (left.length : Int) - (fraction.length - unread.length : Nat)
  match n.exponent with
  | none => scale? s power
  | some e =>
    if exponentBound ≤ e then if s = 0 then some 0.0 else none
    else if e ≤ -exponentBound then some 0.0
    else scale? s (power + e)

/-- The exact integer a number is, if it is written as one that fits. A
negative zero is none. -/
def integer? (n : Numeral) : Option Int :=
  let m := numberOf n.whole
  if n.fraction.isSome ∨ n.exponent.isSome then none
  else if n.negative then if 0 < m ∧ m ≤ twoToThe 63 then some (-(m : Int)) else none
  else if m < wordBound then some m
  else none

/-- The JSON value of a number. -/
def value? (n : Numeral) : Option Json :=
  match n.integer? with
  | some i => some (.integer i)
  | none => n.float?.map fun x => .float (if n.negative then -x else x)

end Numeral

end Json

end Formula
