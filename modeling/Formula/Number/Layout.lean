/-
How the text of a float is laid out. The digits are the shortest ones that
read back; the layout says up to where they are written out in full, how an
exponent looks, and whether a whole number keeps a fraction.
-/
import Formula.Number.Shortest

namespace Formula

/-- The decisions of one written form of floats. -/
structure Layout where
  /-- The powers of ten of the first digit, from least to greatest, that
  are written without an exponent; every power if nothing is given. -/
  plain : Option (Int × Int)
  /-- Whether a whole number is written with `.0`. -/
  fraction : Bool
  /-- Whether a positive exponent has a sign. -/
  plus : Bool
  tie : Tie
  deriving Repr

namespace Layout

/-- Digits written out in full. -/
def inFull (layout : Layout) (d : Decimal) : List Char :=
  let ds := digitsOf d.digits
  let whole := (ds.length : Int) + d.exponent
  if 0 ≤ d.exponent then
    ds ++ List.replicate d.exponent.toNat '0' ++ (if layout.fraction then ['.', '0'] else [])
  else if 0 < whole then
    ds.take whole.toNat ++ '.' :: ds.drop whole.toNat
  else '0' :: '.' :: List.replicate (-whole).toNat '0' ++ ds

/-- Digits written with an exponent. -/
def withExponent (layout : Layout) (d : Decimal) : List Char :=
  let ds := digitsOf d.digits
  let power := d.exponent + (ds.length : Int) - 1
  let mantissa := match ds with
    | c :: e :: r => c :: '.' :: e :: r
    | ds => ds
  mantissa ++ 'e' :: (if layout.plus ∧ 0 ≤ power then ['+'] else []) ++ integerText power

/-- The text of a positive number. -/
def magnitude (layout : Layout) (d : Decimal) : List Char :=
  let power := d.exponent + ((digitsOf d.digits).length : Int) - 1
  match layout.plain with
  | none => layout.inFull d
  | some (least, most) =>
    if least ≤ power ∧ power ≤ most then layout.inFull d else layout.withExponent d

/-- The text of a float. -/
def write (layout : Layout) (x : Float) : String :=
  let sign := if Binary.signBit x then ['-'] else []
  match Binary.ofFloat? x with
  | some b =>
    if b.mantissa = 0 then String.ofList (sign ++ layout.inFull ⟨0, 0⟩)
    else String.ofList (sign ++ layout.magnitude (Shortest.digits layout.tie b))
  | none => if x.isNaN then "NaN" else String.ofList (sign ++ "inf".toList)

end Layout

end Formula
