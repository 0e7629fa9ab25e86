/-
A parser of expressions that is used again and again. It holds what it found
in the last input, and while it works the symbol it is at and how deep it is
nested.

It fills this in step by step: the source and its tokens, the symbols, and
then, symbol by symbol, the instructions and the names of variables. An
action that fails leaves everything as it was at that moment, the nesting
included; it is `parse` that forgets all of it afterwards, and that begins
by forgetting what was found before.

The actions that read follow the levels of the grammar. They repeat for as
long as there are symbols and descend for as long as the nesting allows:
the number of symbols left and the stage bound their recursion and decide
nothing.
-/
import Formula.Act
import Formula.Expr.Compiled
import Formula.Lex.Input

namespace Formula

namespace Expr

/-- Compiles an input. -/
def Compiled.ofInput : Input → Except Fault Compiled
  | .text text => Compiled.ofText text
  | .tokens tokens => Compiled.ofTokens tokens

/-- A parser: what it has found so far, the position of the symbol it is at,
and how deep it is nested. -/
structure Parser extends Compiled where
  position : Nat
  depth : Nat

namespace Parser

-- ================================================================= state

/-- A parser that was not used yet. -/
def new : Parser := ⟨.empty, 0, 0⟩

/-- A parser with everything forgotten. -/
def cleared (p : Parser) : Parser :=
  { p with
    source := ""
    tokens := []
    symbols := []
    position := 0
    depth := 0
    code := []
    names := [] }

/-- The symbols from the current one on. -/
def ahead (p : Parser) : List Symbol := p.symbols.drop p.position

/-- The place of the current symbol, at the end that of the last one. -/
def here (p : Parser) : Place :=
  ((p.ahead.head?.or p.symbols.getLast?).map Symbol.place).getD .origin

/-- Fails at the current symbol. -/
def fail {α : Type} (cause : Cause) : Act Parser α := do throw (.atPlace cause (← get).here)

/-- Moves on by some symbols. -/
def advance (n : Nat) : Act Parser Unit := modify fun p => { p with position := p.position + n }

/-- Adds an instruction. -/
def emit (step : Step) (place : Place) : Act Parser Unit :=
  modify fun p => { p with code := p.code ++ [⟨step, place⟩] }

/-- Adds the name of a variable, unless it is known. -/
def register (name : String) : Act Parser Unit :=
  modify fun p => { p with names := Names.insert p.names name }

/-- Enters one level of nesting at a symbol. -/
def descend (s : Symbol) : Act Parser Unit := do
  modify fun p => { p with depth := p.depth + 1 }
  if maxDepth < (← get).depth then throw (.atPlace (.nestedTooDeep maxDepth) s.place)

/-- Does something one level of nesting deeper, and leaves the level if that
does not fail. -/
def nested (s : Symbol) (inner : Act Parser Unit) : Act Parser Unit := do
  descend s
  inner
  modify fun p => { p with depth := p.depth - 1 }

/-- Moves past the symbol wanted, or fails with the cause given. -/
def expect (part : Part) (cause : Cause) : Act Parser Unit := do
  match (← get).ahead with
  | [] => fail cause
  | s :: _ => if s.part = part then advance 1 else fail cause

/-- Whether the current symbol has a part. -/
def isAt (part : Part) : Act Parser Bool := do return (← get).ahead.head?.any (·.part = part)

-- ================================================================= chains

/-- Reads on after an operand as long as there are joints. -/
def chainFrom (joints : Joints) (operand : Act Parser Unit) : Nat → Act Parser Unit
  | 0 => pure ()
  | n + 1 => do
    match (← get).ahead with
    | [] => pure ()
    | s :: ss =>
      match joints s ss with
      | none => pure ()
      | some (.behind op, k) => do
        advance (k + 1)
        emit (.monadic op s.value.text) s.place
        chainFrom joints operand n
      | some (.between op, k) => do
        advance (k + 1)
        operand
        emit (.dyadic op s.value.text) s.place
        chainFrom joints operand n

/-- Reads an operand and what is joined to it. -/
def chain (joints : Joints) (operand : Act Parser Unit) : Act Parser Unit := do
  operand
  chainFrom joints operand (← get).ahead.length

/-- Reads a comparison of sums of products of powers of primaries. -/
def relational (primary : Act Parser Unit) : Act Parser Unit :=
  chain relationalJoints (chain additiveJoints
    (chain multiplicativeJoints (chain powerJoints primary)))

-- ================================================================= stages

/-- The actions of one stage of nesting: for a primary, and for a comparison
or the negation of one. -/
structure Stage where
  primary : Act Parser Unit
  negation : Act Parser Unit

namespace Stage

/-- Reads a whole expression. -/
def expression (stage : Stage) : Act Parser Unit := chain logicalJoints stage.negation

/-- Reads the further items of a list, each behind a comma, and counts
them. -/
def itemsFrom (item : Act Parser Unit) : Nat → Act Parser Nat
  | 0 => pure 0
  | n + 1 => do
    if ← isAt .comma then
      advance 1
      item
      return (← itemsFrom item n) + 1
    else
      return 0

/-- Reads expressions separated by commas, at least one, and counts them. -/
def items (below : Stage) : Act Parser Nat := do
  below.expression
  return (← itemsFrom below.expression (← get).ahead.length) + 1

/-- Reads what is counted and the closing parenthesis behind it. -/
def closed (counted : Act Parser Nat) : Act Parser Nat := do
  let count ← counted
  expect .rightParen .missingParenthesis
  return count

/-- Reads the arguments of a call behind its opening parenthesis, and counts
them. -/
def arguments (below : Stage) : Act Parser Nat :=
  closed do if ← isAt .rightParen then return 0 else below.items

/-- The number of values that the next instruction takes. -/
def emitCount (count : Nat) (place : Place) : Act Parser Unit :=
  emit (.constant (.integer (Int64.ofNat count))) place

/-- Reads what a name is: a call if a parenthesis follows, else a
variable. -/
def named (below : Stage) (name : Symbol) : Act Parser Unit := do
  if ← isAt .leftParen then
    advance 1
    let count ← below.arguments
    emitCount count name.place
    emit (.function name.value.text) name.place
  else
    register name.value.text
    emit (.variable name.value.text) name.place

/-- Reads what is in parentheses: one expression, or the items of an
array. -/
def grouped (below : Stage) (place : Place) : Act Parser Unit := do
  let count ← closed below.items
  if 1 < count then
    emitCount count place
    emit .array place

/-- Reads the indexes in brackets behind a primary. -/
def indexes (below : Stage) : Nat → Act Parser Unit
  | 0 => pure ()
  | n + 1 => do
    match (← get).ahead with
    | [] => pure ()
    | s :: _ =>
      if s.part = .leftBracket then
        advance 1
        below.expression
        expect .rightBracket .missingBracket
        emit (.dyadic (.plain .element) s.value.text) s.place
        indexes below n
      else pure ()

/-- Reads what a primary is without its indexes, from its first symbol
on. -/
def operand (below : Stage) (s : Symbol) : Act Parser Unit :=
  match s.part with
  | .plus => do
    advance 1
    below.primary
  | .minus => do
    advance 1
    below.primary
    emit (.monadic (.plain .negative) s.value.text) s.place
  | .leftParen => do
    advance 1
    below.grouped s.place
  | .variable => do
    advance 1
    below.named s
  | .constant => do
    advance 1
    emit (.constant s.value) s.place
  | .null => do
    advance 1
    emit (.constant .null) s.place
  | _ => throw (.atPlace (.wrongOperand s.value.text) s.place)

/-- Reads a primary, a level deeper. -/
def primaryAbove (below : Stage) : Act Parser Unit := do
  match (← get).ahead with
  | [] => fail .endOfExpression
  | s :: _ =>
    nested s do
      below.operand s
      below.indexes (← get).ahead.length

/-- Reads `NOT` and what it negates, a level deeper, or a comparison. -/
def negationAbove (below : Stage) (primary : Act Parser Unit) : Act Parser Unit := do
  match (← get).ahead with
  | [] => relational primary
  | s :: _ =>
    if s.part = .not then
      nested s do
        advance 1
        below.negation
        emit (.monadic (.plain .not) s.value.text) s.place
    else relational primary

/-- The stage from which one may descend to `below`. -/
def above (below : Stage) : Stage :=
  ⟨primaryAbove below, negationAbove below (primaryAbove below)⟩

/-- The stage where `n` more levels of nesting have actions of their own. At
the last one the nesting is refused before anything is done. -/
def ofDepth : Nat → Stage
  | 0 => ⟨fail .endOfExpression, fail .endOfExpression⟩
  | n + 1 => above (ofDepth n)

end Stage

-- ================================================================= phases

/-- Takes over the input. -/
def load : Input → Act Parser Unit
  | .text text => do
    modify fun p => { p with source := text }
    let tokens ← Act.ofExcept (Lexer.expression.tokens text)
    modify fun p => { p with tokens := tokens }
  | .tokens tokens =>
    modify fun p => { p with source := String.join (tokens.map Token.text), tokens := tokens }

/-- Finds the symbols of the tokens. -/
def classify : Act Parser Unit := do
  let symbols ← Act.ofExcept (Expr.symbols (← get).tokens)
  modify fun p => { p with symbols := symbols }

/-- Fails if there is a symbol left. -/
def finish : Act Parser Unit := do
  match (← get).ahead with
  | [] => pure ()
  | s :: _ => throw (.atPlace (.leftover s.value.text) s.place)

/-- Finds the instructions and names that the symbols stand for. -/
def analyse : Act Parser Unit := do
  modify fun p => { p with position := 0, depth := 0, code := [] }
  (Stage.ofDepth (maxDepth + 1)).expression
  finish

/-- All phases, one after the other. -/
def work (input : Input) : Act Parser Unit := do
  load input
  classify
  analyse

-- =============================================================== requests

/-- Parses an input: the failure, if any, and the parser afterwards, which
has forgotten everything if there is one. -/
def parse (p : Parser) (input : Input) : Option Fault × Parser :=
  Act.attempt (work input) cleared p.cleared

/-- Answers a request. -/
def answer (p : Parser) : Request → Option Fault × Parser
  | .parse input => p.parse input
  | .clear => (none, p.cleared)

end Parser

end Expr

end Formula
