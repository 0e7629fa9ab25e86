/-
Compiled expressions: instructions for a stack of values, operands before
operators. Constants and variables push a value; a function and an array
first take the number of values they use, which a constant has pushed, and
then the values.
-/
import Formula.Text.Names
import Formula.Value.Operations

namespace Formula

namespace Expr

-- ============================================================== operators

/-- What is done to one operand. -/
inductive Monadic where
  | plain (op : UnaryOperator)
  /-- The opposite of being null. -/
  | isNotNull
  deriving DecidableEq, Repr

/-- What is done to two operands. -/
inductive Dyadic where
  | plain (op : Operator)
  /-- The opposite of being in. -/
  | notIn
  /-- The opposite of matching. -/
  | notLike
  deriving DecidableEq, Repr

/-- Applies an operator to its operand. -/
def Monadic.apply (ops : Operations) : Monadic → Value → Outcome
  | .plain op, v => ops.unary op v
  | .isNotNull, v => do ops.unary .not (← ops.unary .isNull v)

/-- Applies an operator to its operands. -/
def Dyadic.apply (ops : Operations) : Dyadic → Value → Value → Outcome
  | .plain op, a, b => ops.binary op a b
  | .notIn, a, b => do ops.unary .not (← ops.binary .isIn a b)
  | .notLike, a, b => do ops.unary .not (← ops.binary .like a b)

/-- The name of an operator in listings. -/
def Monadic.name : Monadic → String
  | .plain .negative => "Unary"
  | .plain .not => "Not"
  | .plain .isNull => "IsNull"
  | .isNotNull => "IsNotNull"

/-- The name of an operator in listings. -/
def Dyadic.name : Dyadic → String
  | .plain .add => "Plus"
  | .plain .subtract => "Minus"
  | .plain .multiply => "Star"
  | .plain .divide => "Slash"
  | .plain .remainder => "Percent"
  | .plain .power => "Power"
  | .plain .shiftLeft => "ShiftLeft"
  | .plain .shiftRight => "ShiftRight"
  | .plain .and => "And"
  | .plain .or => "Or"
  | .plain .xor => "Xor"
  | .plain .equal => "Equal"
  | .plain .notEqual => "NotEqual"
  | .plain .more => "More"
  | .plain .less => "Less"
  | .plain .moreEqual => "MoreEqual"
  | .plain .lessEqual => "LessEqual"
  | .plain .isIn => "In"
  | .plain .like => "Like"
  | .plain .element => "Element"
  | .notIn => "NotIn"
  | .notLike => "NotLike"

-- =========================================================== instructions

/-- What an instruction does. Operators keep the text they were written
with. -/
inductive Step where
  | constant (value : Value)
  | variable (name : String)
  | function (name : String)
  | array
  | monadic (op : Monadic) (text : String)
  | dyadic (op : Dyadic) (text : String)

/-- A step and the place it was written at. -/
structure Instruction where
  step : Step
  place : Place

namespace Instruction

/-- The name of an instruction in listings. -/
def name (i : Instruction) : String :=
  match i.step with
  | .constant _ => "Constant"
  | .variable _ => "Variable"
  | .function _ => "Function"
  | .array => "Array"
  | .monadic op _ => op.name
  | .dyadic op _ => op.name

/-- The value of an instruction in listings: that of a constant, the text
of anything else, and null for an array. -/
def value (i : Instruction) : Value :=
  match i.step with
  | .constant v => v
  | .variable name => .string name
  | .function name => .string name
  | .array => .null
  | .monadic _ text => .string text
  | .dyadic _ text => .string text

/-- The name of the variable that an instruction reads. -/
def reads? (i : Instruction) : Option String :=
  match i.step with
  | .variable name => some name
  | _ => none

end Instruction

-- ================================================================== names

/-- The variables that instructions read, in order of first appearance. -/
def variableNames (code : List Instruction) : List String :=
  Names.distinct (code.filterMap Instruction.reads?)

end Expr

end Formula
