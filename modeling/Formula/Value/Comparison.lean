/-
Comparing values and looking into them. Two numbers are compared as numbers
of the larger kind; other operands meet in one kind first. Null equals null
only, and stands in no order to anything.
-/
import Formula.Text.Wildcard
import Formula.Value.Coercion

namespace Formula

namespace Coercion

open Value

-- ================================================================ order

/-- The order of two floats; none when one of them is NaN. -/
def compareFloats (x y : Float) : Option Ordering :=
  if x ≤ y then some (if y ≤ x then .eq else .lt) else if y ≤ x then some .gt else none

/-- The order of two values of one kind. -/
def compareAlike (left right : Value) : Except Fault (Option Ordering) :=
  match left, right with
  | .integer a, .integer b => .ok (some (compare a.toInt b.toInt))
  | .float x, .float y => .ok (compareFloats x y)
  | .string s, .string t => .ok (some (compare s t))
  | .boolean p, .boolean q => .ok (some (compare p.toNat q.toNat))
  | a, b => .error (.of (.unsupported "compare" a.kind b.kind))

/-- The order of two values, if they stand in one. -/
def order (k : Coercion) (left right : Value) : Except Fault (Option Ordering) :=
  if left.isNull || right.isNull then .ok none
  else match left, right with
    | .integer a, .integer b => .ok (some (compare a.toInt b.toInt))
    | left, right =>
      match left.toFloat?, right.toFloat? with
      | some x, some y => .ok (compareFloats x y)
      | _, _ => do
        let (a, b) ← k.meet left right
        compareAlike a b

-- ============================================================= equality

/-- Whether two values are equal. -/
def equals (k : Coercion) (left right : Value) : Except Fault Bool :=
  match left, right with
  | .null, .null => .ok true
  | .null, _ | _, .null => .ok false
  | left, right =>
    if left.isNumber && right.isNumber then
      (k.order left right).map (· == some .eq)
    else do
      let (a, b) ← k.meet left right
      .ok (a.same b)

def equal (k : Coercion) (left right : Value) : Outcome := (k.equals left right).map .boolean

def notEqual (k : Coercion) (left right : Value) : Outcome :=
  (k.equals left right).map fun b => .boolean !b

/-- Whether the order of two values is one of those asked for. -/
def ordered (k : Coercion) (wanted : Ordering → Bool) (left right : Value) : Outcome :=
  (k.order left right).map fun o => .boolean (o.any wanted)

def more (k : Coercion) : Value → Value → Outcome := k.ordered (· == .gt)

def less (k : Coercion) : Value → Value → Outcome := k.ordered (· == .lt)

def moreEqual (k : Coercion) : Value → Value → Outcome := k.ordered (· != .lt)

def lessEqual (k : Coercion) : Value → Value → Outcome := k.ordered (· != .gt)

-- ============================================================ collections

/-- Whether a text stands somewhere inside another. -/
def occursIn (part : List Char) : List Char → Bool
  | [] => part.isEmpty
  | c :: r => part.isPrefixOf (c :: r) || occursIn part r

/-- The text of a value after conversion to a text. -/
def asText (k : Coercion) (v : Value) : Except Fault String := (k.convert v .string).map text

/-- Whether a collection holds a value: an array one of its items, a text a
part, an object a name. A value that is no collection holds what equals it.
An item that cannot be compared is not the one looked for. -/
def holds (k : Coercion) (value collection : Value) : Except Fault Bool :=
  match collection with
  | .null => .ok false
  | .array items => .ok (items.any fun item =>
      match k.equals value item with
      | .ok found => found
      | .error _ => false)
  | .string s =>
    if value.isNull then .ok false
    else (k.asText value).map fun part => occursIn part.toList s.toList
  | .object fields => (k.asText value).map fun name => (Fields.find? name fields).isSome
  | other => k.equals value other

def isIn (k : Coercion) (value collection : Value) : Outcome :=
  (k.holds value collection).map .boolean

/-- The position an index stands for, if it can be one. -/
def positionOf? (v : Value) : Option Nat :=
  v.toInteger?.bind fun n => if 0 ≤ n.toInt then some n.toInt.toNat else none

/-- An item of an array, a character of a text, or a member of an object;
null where there is none. -/
def element (k : Coercion) (container index : Value) : Outcome :=
  match container with
  | .null => .ok .null
  | .array items => do
    let i ← k.convert index .integer
    .ok (((positionOf? i).bind (items[·]?)).getD .null)
  | .string s => do
    let i ← k.convert index .integer
    .ok ((((positionOf? i).bind (s.toList[·]?)).map fun c => .string c.toString).getD .null)
  | .object fields => do
    let name ← k.asText index
    .ok ((Fields.find? name fields).getD .null)
  | other => .error (.of (.unsupported "[]" other.kind index.kind))

/-- Whether a text matches a wildcard pattern, with some engine for regular
expressions. -/
def likeWith (engine : Regex.Engine) (k : Coercion) (value pattern : Value) : Outcome :=
  if value.isNull || pattern.isNull then .ok (.boolean false)
  else do
    let s ← k.asText value
    let p ← k.asText pattern
    match Wildcard.build engine p.toList with
    | .ok finds => .ok (.boolean (finds s.toList))
    | .error reason => .error (.of (.invalidPattern reason))

/-- Whether a text matches a wildcard pattern. -/
def like : Coercion → Value → Value → Outcome := likeWith Regex.standard

end Coercion

end Formula
