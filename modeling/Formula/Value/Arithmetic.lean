/-
Arithmetic and logic on values. Null on either side gives null. Integers
are computed exactly or not at all; an integer mixed with a float is
computed in decimal fractions, so that one plus a tenth is `1.1`, and in
floats only where these do not reach.
-/
import Formula.Number.Scaled
import Formula.Value.Coercion

namespace Formula

namespace Coercion

open Value

-- ========================================================= the failures

/-- The failure of an operation on operands of the wrong kinds. -/
def unsupported (operation : String) (left right : Value) : Fault :=
  .of (.unsupported operation left.kind right.kind)

/-- An integer that came out, or the report that none did. -/
def orOverflow (operation : String) (n : Option Int64) : Outcome :=
  match n with
  | some n => .ok (.integer n)
  | none => .error (.of (.overflow operation))

-- ======================================================== mixed numbers

/-- An operation in decimal fractions, and in floats where they fail. -/
def mix (scaled : Scaled → Scaled → Option Scaled) (floats : Float → Float → Float)
    (a b : Option Scaled) (x y : Float) : Value :=
  match (do scaled (← a) (← b) : Option Scaled) with
  | some r => .float r.toFloat
  | none => .float (floats x y)

/-- The result for an integer on one side and a float on the other. -/
def mixed? (scaled : Scaled → Scaled → Option Scaled) (floats : Float → Float → Float)
    (left right : Value) : Option Value :=
  match left, right with
  | .integer n, .float y =>
    some (mix scaled floats (some (.ofInteger n)) (Scaled.ofFloat? y) (floatOf n) y)
  | .float x, .integer n =>
    some (mix scaled floats (Scaled.ofFloat? x) (some (.ofInteger n)) x (floatOf n))
  | _, _ => none

/-- A binary operation on numbers: null for null, decimal fractions for
mixed operands, and `common` for operands that have met in one kind. -/
def arithmetic (k : Coercion) (scaled : Scaled → Scaled → Option Scaled)
    (floats : Float → Float → Float) (common : Value → Value → Outcome) (left right : Value) :
    Outcome :=
  if left.isNull || right.isNull then .ok .null
  else match mixed? scaled floats left right with
    | some v => .ok v
    | none => do
      let (a, b) ← k.meet left right
      common a b

-- ============================================================ operations

/-- Sum of numbers; concatenation of texts and of arrays. -/
def add (k : Coercion) : Value → Value → Outcome :=
  k.arithmetic Scaled.add (· + ·) fun
    | .integer a, .integer b => orOverflow "+" (Checked.add a b)
    | .float x, .float y => .ok (.float (x + y))
    | .string s, .string t => .ok (.string (s ++ t))
    | .array xs, .array ys => .ok (.array (xs ++ ys))
    | a, b => .error (unsupported "+" a b)

/-- Difference of numbers. -/
def subtract (k : Coercion) : Value → Value → Outcome :=
  k.arithmetic Scaled.sub (· - ·) fun
    | .integer a, .integer b => orOverflow "-" (Checked.sub a b)
    | .float x, .float y => .ok (.float (x - y))
    | a, b => .error (unsupported "-" a b)

/-- Product of numbers. -/
def multiply (k : Coercion) : Value → Value → Outcome :=
  k.arithmetic Scaled.mul (· * ·) fun
    | .integer a, .integer b => orOverflow "*" (Checked.mul a b)
    | .float x, .float y => .ok (.float (x * y))
    | a, b => .error (unsupported "*" a b)

/-- Quotient of numbers, of integers toward zero. -/
def divide (k : Coercion) : Value → Value → Outcome :=
  k.arithmetic Scaled.div (· / ·) fun
    | .integer a, .integer b =>
      if b = 0 then .error (.of .divisionByZero) else orOverflow "/" (Checked.div a b)
    | .float x, .float y => .ok (.float (x / y))
    | a, b => .error (unsupported "/" a b)

/-- Remainder of the quotient toward zero. -/
def remainder (k : Coercion) : Value → Value → Outcome :=
  k.arithmetic Scaled.rem floatRem fun
    | .integer a, .integer b =>
      if b = 0 then .error (.of .divisionByZero) else orOverflow "%" (Checked.rem a b)
    | .float x, .float y => .ok (.float (floatRem x y))
    | a, b => .error (unsupported "%" a b)

/-- The first exponent that is too large for an exact power. -/
def exponentBound : Int := 4294967296

/-- Power of numbers. An integer to a power from zero up to the bound is
exact; every other power is one of floats. -/
def powerOf (left right : Value) : Outcome :=
  match left, right with
  | .integer a, .integer b =>
    if 0 ≤ b.toInt ∧ b.toInt < exponentBound then orOverflow "^" (Checked.pow a b.toInt.toNat)
    else .ok (.float ((floatOf a).pow (floatOf b)))
  | left, right =>
    match left.toFloat?, right.toFloat? with
    | some x, some y => .ok (.float (x.pow y))
    | _, _ => .error (unsupported "^" left right)

/-- Power of two values that meet in a number. -/
def power (k : Coercion) (left right : Value) : Outcome :=
  if left.isNull || right.isNull then .ok .null
  else if left.isNumber && right.isNumber then powerOf left right
  else do
    let (a, b) ← k.meet left right
    powerOf a b

/-- The opposite of a number. -/
def negative (v : Value) : Outcome :=
  match v with
  | .null => .ok .null
  | .integer n => orOverflow "-" (Checked.neg n)
  | .float x => .ok (.float (-x))
  | v => .error (.of (.unsupportedFor "-" v.kind))

/-- Bits moved by an amount; both operands are taken as integers. -/
def shift (k : Coercion) (operation : String) (move : Int64 → Nat → Option Int64)
    (left right : Value) : Outcome :=
  if left.isNull || right.isNull then .ok .null
  else do
    let a ← k.convert left .integer
    let b ← k.convert right .integer
    match a, b with
    | .integer n, .integer m =>
      orOverflow operation (if 0 ≤ m.toInt then move n m.toInt.toNat else none)
    | a, b => .error (unsupported operation a b)

def shiftLeft (k : Coercion) : Value → Value → Outcome := k.shift "<<" Checked.shiftLeft

def shiftRight (k : Coercion) : Value → Value → Outcome := k.shift ">>" Checked.shiftRight

/-- Logic on truth values, and bit by bit where both operands are
integers. -/
def logic (k : Coercion) (operation : String) (truths : Bool → Bool → Bool)
    (bits : Int64 → Int64 → Int64) (left right : Value) : Outcome :=
  if left.isNull || right.isNull then .ok .null
  else match left, right with
    | .integer n, .integer m => .ok (.integer (bits n m))
    | left, right => do
      let a ← k.convert left .boolean
      let b ← k.convert right .boolean
      match a, b with
      | .boolean p, .boolean q => .ok (.boolean (truths p q))
      | a, b => .error (unsupported operation a b)

def and (k : Coercion) : Value → Value → Outcome := k.logic "AND" Bool.and (· &&& ·)

def or (k : Coercion) : Value → Value → Outcome := k.logic "OR" Bool.or (· ||| ·)

def xor (k : Coercion) : Value → Value → Outcome := k.logic "XOR" Bool.xor (· ^^^ ·)

/-- The opposite of a truth value; of an integer, bit by bit. -/
def not (k : Coercion) (v : Value) : Outcome :=
  match v with
  | .null => .ok .null
  | .boolean b => .ok (.boolean (!b))
  | .integer n => .ok (.integer (~~~n))
  | v => do
    match ← k.convert v .boolean with
    | .boolean b => .ok (.boolean (!b))
    | w => .error (unsupported "NOT" v w)

end Coercion

end Formula
