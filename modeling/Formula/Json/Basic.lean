/-
JSON values. Integers and other numbers are kept apart, integers of any
size; the members of an object stand in order of their names, each name once
(`Json.Ordered`).
-/
import Formula.Number.Checked
import Formula.Value.Basic

namespace Formula

/-- A JSON value. The members of an object stand in order of their names, each
name once. -/
inductive Json where
  | null
  | boolean (b : Bool)
  | integer (n : Int)
  /-- A number with a fraction or an exponent; always finite. -/
  | float (x : Float)
  | string (s : String)
  | array (items : List Json)
  | object (fields : List (String × Json))
  deriving Inhabited

/-- A reader of JSON texts, which refuses what is none. -/
abbrev Json.Reader := String → Option Json

namespace Json

-- =================================================================== members

/-- Whether the members of every object in a JSON value, at any depth, stand in order
of their names, each name once. -/
inductive Ordered : Json → Prop
  | null : Ordered .null
  | boolean (b : Bool) : Ordered (.boolean b)
  | integer (n : Int) : Ordered (.integer n)
  | float (x : Float) : Ordered (.float x)
  | string (s : String) : Ordered (.string s)
  | array {items : List Json} : (∀ j ∈ items, Ordered j) → Ordered (.array items)
  | object {fields : List (String × Json)} : Fields.Ordered fields →
    (∀ m ∈ fields, Ordered m.2) → Ordered (.object fields)

-- ======================================================== to and from values

mutual

/-- A value as JSON. Infinities and NaN have no JSON form and become
null. -/
def ofValue : Value → Json
  | .null => .null
  | .boolean b => .boolean b
  | .integer n => .integer n.toInt
  | .float x => if x.isFinite then .float x else .null
  | .string s => .string s
  | .array items => .array (ofItems items)
  | .object fields => .object (ofFields fields)

/-- Values as JSON. -/
def ofItems : List Value → List Json
  | [] => []
  | v :: vs => ofValue v :: ofItems vs

/-- Members as JSON. -/
def ofFields : List (String × Value) → List (String × Json)
  | [] => []
  | (n, v) :: vs => (n, ofValue v) :: ofFields vs

end

/-- The number that an integer becomes: itself if 64 bits hold it, and the
nearest float otherwise. -/
def integerValue (n : Int) : Value :=
  match Checked.fit n with
  | some n => .integer n
  | none => .float (Float.ofInt n)

mutual

/-- JSON as a value. -/
def toValue : Json → Value
  | .null => .null
  | .boolean b => .boolean b
  | .integer n => integerValue n
  | .float x => .float x
  | .string s => .string s
  | .array items => .array (toItems items)
  | .object fields => .object (toFields fields)

/-- JSON items as values. -/
def toItems : List Json → List Value
  | [] => []
  | j :: js => toValue j :: toItems js

/-- JSON members as members. -/
def toFields : List (String × Json) → List (String × Value)
  | [] => []
  | (n, j) :: js => (n, toValue j) :: toFields js

end

end Json

end Formula
