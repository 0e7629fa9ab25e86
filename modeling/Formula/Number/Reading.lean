/-
Numbers read from text. An integer is a sign and digits that fit 64 bits.
A float is a sign and either a word for infinity or NaN, or digits with a
point among or around them and an exponent behind; it is rounded to the
nearest float, beyond the range to infinity.
-/
import Formula.Number.Checked
import Formula.Number.Digits
import Formula.Text.Case

namespace Formula

-- ============================================================== integers

/-- A sign in front of a text, and what follows it. -/
def signed (cs : List Char) : Bool × List Char :=
  match cs with
  | '+' :: r => (false, r)
  | '-' :: r => (true, r)
  | r => (false, r)

/-- The 64-bit integer that a whole text spells. -/
def integer? (cs : List Char) : Option Int64 :=
  let (negative, ds) := signed cs
  if ds ≠ [] ∧ ds.all isDigit then
    Checked.fit (if negative then -(numberOf ds : Int) else numberOf ds)
  else none

-- ================================================================ floats

/-- The float nearest to a decimal number. Exponents far beyond the range
of floats are settled by the number of digits alone. -/
def Decimal.toFloat (d : Decimal) : Float :=
  let power := ((digitsOf d.digits).length : Int) + d.exponent
  if d.digits = 0 ∨ power < -400 then 0.0
  else if 400 < power then 1.0 / 0.0
  else OfScientific.ofScientific d.digits (d.exponent < 0) d.exponent.natAbs

/-- An exponent behind the digits of a float: nothing, or `e` and a signed
number to the end of the text. -/
def exponent? (cs : List Char) : Option Int :=
  match cs with
  | [] => some 0
  | c :: r =>
    let (negative, ds) := signed r
    if (c = 'e' ∨ c = 'E') ∧ ds ≠ [] ∧ ds.all isDigit then
      some (if negative then -(numberOf ds : Int) else numberOf ds)
    else none

/-- The decimal number that a whole text without a sign spells. -/
def decimal? (cs : List Char) : Option Decimal :=
  let whole := leadingDigits cs
  let rest := afterDigits cs
  let (fraction, rest) := match rest with
    | '.' :: r => (leadingDigits r, afterDigits r)
    | r => ([], r)
  if whole = [] ∧ fraction = [] then none
  else (exponent? rest).map fun e => ⟨numberOf (whole ++ fraction), e - fraction.length⟩

/-- The float that a whole text spells. -/
def float? (cs : List Char) : Option Float :=
  let (negative, r) := signed cs
  let word := r.map Char.toLower
  let magnitude :=
    if word = "inf".toList ∨ word = "infinity".toList then some (1.0 / 0.0)
    else if word = "nan".toList then some (0.0 / 0.0)
    else (decimal? r).map Decimal.toFloat
  magnitude.map fun x => if negative then -x else x

end Formula
