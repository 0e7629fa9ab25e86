/-
The values that expressions compute with: null, truth values, 64-bit
integers, floats, texts, arrays and objects. Integers and floats are kept
apart; the operations decide how to mix them.
-/
import Formula.Fields
import Formula.Number.Binary

namespace Formula

/-- A value. The members of an object stand in order of their names, each
name once (`Value.Ordered`). -/
inductive Value where
  | null
  | boolean (b : Bool)
  | integer (n : Int64)
  | float (x : Float)
  | string (s : String)
  | array (items : List Value)
  | object (fields : List (String × Value))
  deriving Inhabited

namespace Value

-- ================================================================= kinds

/-- The kinds of values. -/
inductive Kind where
  | null
  | boolean
  | integer
  | float
  | string
  | array
  | object
  deriving DecidableEq, Repr

/-- A kind's name in messages. -/
def Kind.name : Kind → String
  | .null => "null"
  | .boolean => "boolean"
  | .integer => "integer"
  | .float => "float"
  | .string => "string"
  | .array => "array"
  | .object => "object"

/-- The kind of a value. -/
def kind : Value → Kind
  | null => .null
  | boolean _ => .boolean
  | integer _ => .integer
  | float _ => .float
  | string _ => .string
  | array _ => .array
  | object _ => .object

def isNull : Value → Bool
  | null => true
  | _ => false

/-- Whether a value is an integer or a float. -/
def isNumber : Value → Bool
  | integer _ | float _ => true
  | _ => false

theorem isNull_iff {v : Value} : v.isNull = true ↔ v = null := by
  cases v <;> simp [isNull]

-- =============================================================== members

/-- Whether the members of every object in a value, at any depth, stand in order of
their names, each name once. Objects come from JSON; no operation makes one. -/
inductive Ordered : Value → Prop
  | null : Ordered null
  | boolean (b : Bool) : Ordered (boolean b)
  | integer (n : Int64) : Ordered (integer n)
  | float (x : Float) : Ordered (float x)
  | string (s : String) : Ordered (string s)
  | array {items : List Value} : (∀ v ∈ items, Ordered v) → Ordered (array items)
  | object {fields : List (String × Value)} : Fields.Ordered fields →
    (∀ m ∈ fields, Ordered m.2) → Ordered (object fields)

-- ============================================================ viewing as

/-- The float nearest to an integer. -/
def floatOf (n : Int64) : Float := Float.ofInt n.toInt

/-- Whether a value counts as true: null, `false`, zero and whatever is
empty do not. -/
def truth : Value → Bool
  | null => false
  | boolean b => b
  | integer n => n != 0
  | float x => x != 0.0
  | string s => s != ""
  | array items => !items.isEmpty
  | object fields => !fields.isEmpty

/-- A number as a float. -/
def toFloat? : Value → Option Float
  | integer n => some (floatOf n)
  | float x => some x
  | _ => none

/-- A number as an integer: finite floats are rounded, halves away from
zero, and kept within 64 bits. -/
def toInteger? : Value → Option Int64
  | integer n => some n
  | float x => if x.isFinite then some x.round.toInt64 else none
  | _ => none

-- ============================================================== equality

mutual

/-- Whether two values are of one kind and equal throughout. Floats are
compared as numbers, so zeros are equal and NaN differs from itself. -/
def same : Value → Value → Bool
  | null, null => true
  | boolean a, boolean b => a == b
  | integer a, integer b => a == b
  | float a, float b => a == b
  | string a, string b => a == b
  | array as, array bs => sameItems as bs
  | object as, object bs => sameFields as bs
  | _, _ => false

/-- Equality item by item. -/
def sameItems : List Value → List Value → Bool
  | [], [] => true
  | a :: as, b :: bs => same a b && sameItems as bs
  | _, _ => false

/-- Equality member by member. -/
def sameFields : List (String × Value) → List (String × Value) → Bool
  | [], [] => true
  | (m, a) :: as, (n, b) :: bs => m == n && same a b && sameFields as bs
  | _, _ => false

end

end Value

end Formula
