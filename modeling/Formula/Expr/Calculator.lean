/-
Calculators: an expression that is compiled once and evaluated any number of
times, with variables, functions and operations of its own to evaluate it
with. A calculator that creates variables adds each variable that a new
expression reads and that it lacks, holding null.
-/
import Formula.Expr.Compiled
import Formula.Expr.Evaluation
import Formula.Expr.StandardLibrary

namespace Formula

/-- A compiled expression and what to evaluate it with. -/
structure Calculator where
  compiled : Expr.Compiled
  scope : Scope
  library : Library
  operations : Operations
  autoVariables : Bool

namespace Calculator

/-- A calculator without an expression: the standard functions, and
operations that convert what they can. -/
def new : Calculator :=
  ⟨.empty, .empty, .standard, Coercion.lenient.operations, true⟩

/-- Takes over what is kept of an attempt to compile. A failure leaves no
names, and so adds no variables. -/
def accept (c : Calculator) (attempt : Except Fault Expr.Compiled) : Option Fault × Calculator :=
  let (problem, compiled) := Expr.Compiled.kept attempt
  let scope := if c.autoVariables then c.scope.addMissing compiled.names else c.scope
  (problem, { c with compiled := compiled, scope := scope })

/-- Compiles a text. -/
def setExpression (c : Calculator) (text : String) : Option Fault × Calculator :=
  c.accept (Expr.Compiled.ofText text)

/-- Compiles tokens. -/
def setTokens (c : Calculator) (tokens : List Token) : Option Fault × Calculator :=
  c.accept (Expr.Compiled.ofTokens tokens)

/-- Adds to a scope each variable that the expression reads and that it
lacks. -/
def createVariables (c : Calculator) (scope : Scope) : Scope := scope.addMissing c.compiled.names

/-- Forgets the expression and the variables. -/
def clear (c : Calculator) : Calculator := { c with compiled := .empty, scope := .empty }

/-- Evaluates with any variables and functions in place of its own. -/
def evaluateIn (c : Calculator) (valueOf? : String → Option Value)
    (functionOf? : String → Option (List Value → Operations → Outcome)) : Outcome :=
  Expr.evaluate ⟨valueOf?, functionOf?, c.operations⟩ c.compiled.code

/-- Evaluates with a scope and a library in place of its own. -/
def evaluateWith (c : Calculator) (scope : Scope) (library : Library) : Outcome :=
  c.evaluateIn scope.value? library.function?

/-- Evaluates with its own scope and library. -/
def evaluate (c : Calculator) : Outcome := c.evaluateWith c.scope c.library

/-- A calculator for an expression. -/
def ofExpression (text : String) : Except Fault Calculator :=
  match new.setExpression text with
  | (some fault, _) => .error fault
  | (none, c) => .ok c

end Calculator

end Formula
