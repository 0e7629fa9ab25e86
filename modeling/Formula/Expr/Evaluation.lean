/-
Evaluation, twice: of compiled expressions on a stack, which is what
calculators do, and of trees by recursion, which is what it means. In both
a fault gets the place of the operator, variable or function it came from,
unless it already has a line.
-/
import Formula.Expr.Routine
import Formula.Expr.Scope
import Formula.Expr.Stack
import Formula.Expr.Tree

namespace Formula

namespace Expr

/-- What an evaluation works with: the values that names of variables stand
for, the functions that names of functions stand for, and the operations. -/
structure Context where
  valueOf? : String → Option Value
  functionOf? : String → Option (List Value → Operations → Outcome)
  operations : Operations

namespace Context

-- =============================================================== look-ups

/-- The value of a variable. -/
def read (ctx : Context) (name : String) : Outcome :=
  match ctx.valueOf? name with
  | some v => .ok v
  | none => .error (.of (.variableNotFound name))

/-- The value of a function at some arguments. -/
def call (ctx : Context) (name : String) (args : List Value) : Outcome :=
  match ctx.functionOf? name with
  | some f => f args ctx.operations
  | none => .error (.of (.functionNotFound name))

end Context

/-- A result whose fault has a place. -/
def located {α : Type} (place : Place) : Except Fault α → Except Fault α
  | .ok a => .ok a
  | .error fault => .error (fault.locate place)

-- ============================================================== the stack

/-- One step on the stack. -/
def Step.run (ctx : Context) (stack : Stack) : Step → Except Fault Stack
  | .constant v => .ok (stack.push v)
  | .variable name => do
    let v ← ctx.read name
    .ok (stack.push v)
  | .function name => do
    let (args, stack) ← stack.popCounted
    let v ← ctx.call name args
    .ok (stack.push v)
  | .array => do
    let (items, stack) ← stack.popCounted
    .ok (stack.push (.array items))
  | .monadic op _ => do
    let (a, stack) ← stack.pop
    let v ← op.apply ctx.operations a
    .ok (stack.push v)
  | .dyadic op _ => do
    let (b, stack) ← stack.pop
    let (a, stack) ← stack.pop
    let v ← op.apply ctx.operations a b
    .ok (stack.push v)

/-- Instructions in order. -/
def run (ctx : Context) (stack : Stack) : List Instruction → Except Fault Stack
  | [] => .ok stack
  | i :: is =>
    match located i.place (i.step.run ctx stack) with
    | .error fault => .error fault
    | .ok stack => run ctx stack is

/-- The value that instructions leave on an empty stack. They must leave
exactly one. -/
def evaluate (ctx : Context) (code : List Instruction) : Outcome :=
  match run ctx .empty code with
  | .error fault => .error fault
  | .ok stack =>
    match stack.values with
    | [v] => .ok v
    | vs => .error (.of (.valuesLeft vs.length))

-- ================================================================== trees

namespace Tree

mutual

/-- The value of a tree: operands from left to right, then the operator. -/
def value (ctx : Context) : Tree → Outcome
  | .constant v _ => .ok v
  | .variable name place => located place (ctx.read name)
  | .call name args place => do
    let vs ← values ctx args
    located place (ctx.call name vs)
  | .group t => value ctx t
  | .array items _ => do
    let vs ← values ctx items
    .ok (.array vs)
  | .plus t => value ctx t
  | .monadic op t _ place => do
    let a ← value ctx t
    located place (op.apply ctx.operations a)
  | .dyadic op l r _ place => do
    let a ← value ctx l
    let b ← value ctx r
    located place (op.apply ctx.operations a b)

/-- The values of several trees in order. -/
def values (ctx : Context) : List Tree → Except Fault (List Value)
  | [] => .ok []
  | t :: ts => do
    let v ← value ctx t
    let vs ← values ctx ts
    .ok (v :: vs)

end

end Tree

end Expr

end Formula
