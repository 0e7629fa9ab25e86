/-
Expressions as trees. Besides what is computed, a tree keeps the plus signs
and the parentheses around single expressions: they compute nothing, but
count as nesting.

`Tree.code` lists a tree in postorder, which is its compiled form: operands
from left to right, then the operator; the number of arguments or items
before the function or array that takes them.
-/
import Formula.Expr.Instruction

namespace Formula

namespace Expr

/-- An expression. -/
inductive Tree where
  | constant (value : Value) (place : Place)
  | variable (name : String) (place : Place)
  | call (name : String) (args : List Tree) (place : Place)
  /-- Parentheses around one expression. -/
  | group (inner : Tree)
  /-- Parentheses around several expressions. -/
  | array (items : List Tree) (place : Place)
  /-- A plus sign before an operand. -/
  | plus (operand : Tree)
  | monadic (op : Monadic) (operand : Tree) (text : String) (place : Place)
  | dyadic (op : Dyadic) (left right : Tree) (text : String) (place : Place)

namespace Tree

/-- How many values the next instruction takes, as an instruction. -/
def countAt (items : List Tree) (place : Place) : Instruction :=
  ⟨.constant (.integer (Int64.ofNat items.length)), place⟩

mutual

/-- The compiled form of a tree. -/
def code : Tree → List Instruction
  | .constant v p => [⟨.constant v, p⟩]
  | .variable n p => [⟨.variable n, p⟩]
  | .call n args p => codeAll args ++ [countAt args p, ⟨.function n, p⟩]
  | .group t => code t
  | .array items p => codeAll items ++ [countAt items p, ⟨.array, p⟩]
  | .plus t => code t
  | .monadic op t s p => code t ++ [⟨.monadic op s, p⟩]
  | .dyadic op l r s p => code l ++ code r ++ [⟨.dyadic op s, p⟩]

/-- The compiled forms of several trees, one after the other. -/
def codeAll : List Tree → List Instruction
  | [] => []
  | t :: ts => code t ++ codeAll ts

end

end Tree

end Expr

end Formula
