/-
Decimal digits: the digits of a natural number, the number that digits
spell, and digits with a decimal exponent.
-/

namespace Formula

/-- `digits * 10 ^ exponent`. -/
structure Decimal where
  digits : Nat
  exponent : Int
  deriving Repr, DecidableEq

/-- Whether a character is one of the ten ASCII digits. -/
def isDigit (c : Char) : Bool := '0' ≤ c && c ≤ '9'

/-- The number a digit stands for. -/
def digitValue (c : Char) : Nat := c.toNat - '0'.toNat

/-- The number that digits spell, put behind the digits of `acc`. -/
def numberFrom (acc : Nat) (ds : List Char) : Nat :=
  ds.foldl (fun n d => 10 * n + digitValue d) acc

/-- The number that digits spell. -/
def numberOf (ds : List Char) : Nat := numberFrom 0 ds

/-- The digits of a number, without leading zeros. -/
def digitsOf (n : Nat) : List Char := Nat.toDigits 10 n

/-- The decimal text of an integer. -/
def integerText (n : Int) : List Char :=
  if n < 0 then '-' :: digitsOf n.natAbs else digitsOf n.natAbs

/-- The leading digits of a text. -/
def leadingDigits (cs : List Char) : List Char := cs.takeWhile isDigit

/-- What follows the leading digits of a text. -/
def afterDigits (cs : List Char) : List Char := cs.dropWhile isDigit

@[simp] theorem leadingDigits_append_afterDigits (cs : List Char) :
    leadingDigits cs ++ afterDigits cs = cs := List.takeWhile_append_dropWhile

/-- Trailing zeros moved from the digits into the exponent, at most `n` of
them. -/
def Decimal.trim (d : Decimal) : Nat → Decimal
  | 0 => d
  | n + 1 =>
    if d.digits ≠ 0 ∧ d.digits % 10 = 0 then Decimal.trim ⟨d.digits / 10, d.exponent + 1⟩ n else d

end Formula
