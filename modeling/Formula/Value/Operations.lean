/-
The operations an evaluation applies to values, gathered in one record so
that an evaluation can be given any of them. A coercion determines all its
operations.
-/
import Formula.Value.Arithmetic
import Formula.Value.Comparison

namespace Formula

/-- The operators on one operand. -/
inductive UnaryOperator where
  | negative
  | not
  | isNull
  deriving DecidableEq, Repr

/-- The operators on two operands. -/
inductive Operator where
  | add
  | subtract
  | multiply
  | divide
  | remainder
  | power
  | shiftLeft
  | shiftRight
  | and
  | or
  | xor
  | equal
  | notEqual
  | more
  | less
  | moreEqual
  | lessEqual
  | isIn
  | like
  | element
  deriving DecidableEq, Repr

/-- What the operators do, and how values are converted. -/
structure Operations where
  convert : Value → Value.Kind → Outcome
  unary : UnaryOperator → Value → Outcome
  binary : Operator → Value → Value → Outcome

namespace Coercion

/-- What an operator does to its operand. -/
def applyUnary (k : Coercion) : UnaryOperator → Value → Outcome
  | .negative => negative
  | .not => k.not
  | .isNull => fun v => .ok (.boolean v.isNull)

/-- What an operator does to its operands. -/
def applyBinary (k : Coercion) : Operator → Value → Value → Outcome
  | .add => k.add
  | .subtract => k.subtract
  | .multiply => k.multiply
  | .divide => k.divide
  | .remainder => k.remainder
  | .power => k.power
  | .shiftLeft => k.shiftLeft
  | .shiftRight => k.shiftRight
  | .and => k.and
  | .or => k.or
  | .xor => k.xor
  | .equal => k.equal
  | .notEqual => k.notEqual
  | .more => k.more
  | .less => k.less
  | .moreEqual => k.moreEqual
  | .lessEqual => k.lessEqual
  | .isIn => k.isIn
  | .like => k.like
  | .element => k.element

/-- The operations built on a coercion. -/
def operations (k : Coercion) : Operations := ⟨k.convert, k.applyUnary, k.applyBinary⟩

end Coercion

end Formula
