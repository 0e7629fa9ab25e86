/-
Compiled expressions with all that is known about them: the source, its
tokens and symbols, the instructions, and the variables they read. A
compilation depends on its source alone; one that fails leaves nothing.
-/
import Formula.Expr.Grammar
import Formula.Expr.Lexer

namespace Formula

namespace Expr

/-- An expression and what compiling it found. -/
structure Compiled where
  source : String
  tokens : List Token
  symbols : List Symbol
  code : List Instruction
  names : List String

namespace Compiled

/-- Before anything is compiled. -/
def empty : Compiled := ⟨"", [], [], [], []⟩

/-- Compiles tokens of a source. -/
def ofSource (source : String) (tokens : List Token) : Except Fault Compiled := do
  let symbols ← Expr.symbols tokens
  let tree ← Expr.tree symbols
  .ok ⟨source, tokens, symbols, tree.code, variableNames tree.code⟩

/-- Compiles a text. -/
def ofText (text : String) : Except Fault Compiled := do
  let tokens ← Lexer.expression.tokens text
  ofSource text tokens

/-- Compiles tokens read elsewhere; their texts together are the source. -/
def ofTokens (tokens : List Token) : Except Fault Compiled :=
  ofSource (String.join (tokens.map Token.text)) tokens

/-- What is kept of an attempt to compile: the failure and nothing compiled,
or no failure and what was compiled. -/
def kept : Except Fault Compiled → Option Fault × Compiled
  | .error fault => (some fault, empty)
  | .ok compiled => (none, compiled)

end Compiled

end Expr

end Formula
