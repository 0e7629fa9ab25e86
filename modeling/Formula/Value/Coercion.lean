/-
How values of different kinds are brought together. A coercion decides how
a value is converted to a kind, and how two operands meet in one kind; all
operations are built on these two decisions.

The strict coercion refuses to mix kinds, except that an integer may become
a float. The lenient one reads numbers and truth values out of texts, writes
them as texts, and wraps single values into arrays; where the right operand
cannot take the kind of the left one, the left one is converted instead.
-/
import Formula.Fault
import Formula.Number.Reading
import Formula.Text.Blank
import Formula.Value.Text

namespace Formula

/-- A way of converting values. -/
structure Coercion where
  convert : Value → Value.Kind → Outcome
  /-- Brings the operands of an operation together. -/
  meet : Value → Value → Except Fault (Value × Value)

namespace Coercion

/-- The coercion that converts the right operand to the kind of the left
one. -/
def ofConvert (convert : Value → Value.Kind → Outcome) : Coercion where
  convert := convert
  meet left right := (convert right left.kind).map fun r => (left, r)

/-- The failure to convert a value. -/
def refuse (v : Value) (target : Value.Kind) : Fault := .of (.badConversion v.kind target)

-- ================================================================ strict

/-- Conversion that only widens integers to floats. Whatever has the kind
already stays, and everything may become null. -/
def convertStrict (v : Value) (target : Value.Kind) : Outcome :=
  if v.kind = target then .ok v
  else match v, target with
    | _, .null => .ok .null
    | .integer n, .float => .ok (.float (Value.floatOf n))
    | v, target => .error (refuse v target)

/-- Refuses to mix kinds. -/
def strict : Coercion := ofConvert convertStrict

-- =============================================================== lenient

/-- The truth value a text spells: `true` and `false` in any case, nothing
as false, a number as whether it is not zero, and any other text as
true. -/
def truthOf (s : String) : Bool :=
  let s := trimText s
  if sameName s "true" then true
  else if s = "" ∨ sameName s "false" then false
  else match float? s.toList with
    | some x => x != 0.0
    | none => true

/-- The integer a text spells, cutting the fraction off a decimal number. -/
def integerOf? (s : String) : Option Int64 :=
  let cs := trimBlanks s.toList
  (integer? cs).or ((float? cs).map Float.toInt64)

/-- The float a text spells. -/
def floatOf? (s : String) : Option Float := float? (trimBlanks s.toList)

/-- The conversions between different kinds that are possible. -/
def convertLenient? (v : Value) (target : Value.Kind) : Option Value :=
  match v, target with
  | _, .null => some .null
  | v, .string => some (.string v.text)
  | .string s, .boolean => some (.boolean (truthOf s))
  | v, .boolean => some (.boolean v.truth)
  | .null, .integer => some (.integer 0)
  | .boolean b, .integer => some (.integer (if b then 1 else 0))
  | .float x, .integer => some (.integer x.toInt64)
  | .string s, .integer => (integerOf? s).map .integer
  | .null, .float => some (.float 0.0)
  | .boolean b, .float => some (.float (if b then 1.0 else 0.0))
  | .integer n, .float => some (.float (Value.floatOf n))
  | .string s, .float => (floatOf? s).map .float
  | v, .array => some (.array [v])
  | _, _ => none

/-- Conversion that reads and writes texts and wraps arrays. -/
def convertLenient (v : Value) (target : Value.Kind) : Outcome :=
  if v.kind = target then .ok v
  else match convertLenient? v target with
    | some w => .ok w
    | none => .error (refuse v target)

/-- Converts as much as it can, the right operand first. -/
def lenient : Coercion where
  convert := convertLenient
  meet left right :=
    match convertLenient right left.kind with
    | .ok r => .ok (left, r)
    | .error _ => (convertLenient left right.kind).map fun l => (l, right)

end Coercion

end Formula
