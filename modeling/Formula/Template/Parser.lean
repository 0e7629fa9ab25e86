/-
A parser of templates that is used again and again. It holds what it found
in the last template.

The name that a tag refers to is known as soon as the tag is closed, the
pieces when all tags are, and the tree when all sections are. So a template
that breaks off leaves the names before that point. It is `parse` that
forgets them afterwards, and that begins by forgetting what was found
before.
-/
import Formula.Act
import Formula.Lex.Input
import Formula.Template.Parsed

namespace Formula

namespace Template

/-- Reads an input. -/
def Parsed.ofInput : Input → Except Fault Parsed
  | .text text => Parsed.ofText text
  | .tokens tokens => Parsed.ofTokens tokens

/-- A parser is what it has found so far. -/
abbrev Parser := Parsed

namespace Parser

-- ================================================================= state

/-- A parser that was not used yet. -/
def new : Parser := .empty

/-- A parser with everything forgotten. -/
def cleared (p : Parser) : Parser :=
  { p with source := "", tokens := [], pieces := [], nodes := [], names := [] }

/-- Adds the name that a piece refers to, unless it is known or there is
none. -/
def register (piece : Piece) : Act Parser Unit :=
  match piece.reference? with
  | none => pure ()
  | some name => modify fun p => { p with names := Names.insert p.names name }

-- ================================================================ phases

/-- Takes over the input. -/
def load : Input → Act Parser Unit
  | .text text => do
    modify fun p => { p with source := text }
    let tokens ← Act.ofExcept (Template.tokens text)
    modify fun p => { p with tokens := tokens }
  | .tokens tokens =>
    modify fun p => { p with source := String.join (tokens.map Token.text), tokens := tokens }

/-- Reads tokens in some mode, and adds the name of each piece when it is
complete. -/
def collect (last : Place) : Mode → List Token → Act Parser (List Piece)
  | mode, [] => if mode.wanted = .text then pure [] else throw (.atPlace .endOfTemplate last)
  | mode, t :: ts => do
    let (mode, piece) ← Act.ofExcept (mode.step t)
    match piece with
    | none => collect last mode ts
    | some piece =>
      register piece
      let pieces ← collect last mode ts
      return piece :: pieces

/-- Finds the pieces and names in the tokens. -/
def split : Act Parser Unit := do
  let tokens := (← get).tokens
  let pieces ← collect ((tokens.getLast?.map Token.place).getD .origin) .outside tokens
  modify fun p => { p with pieces := pieces }

/-- Finds the tree of the pieces. -/
def nest : Act Parser Unit := do
  let nodes ← Act.ofExcept (tree (← get).pieces)
  modify fun p => { p with nodes := nodes }

/-- All phases, one after the other. -/
def work (input : Input) : Act Parser Unit := do
  load input
  split
  nest

-- =============================================================== requests

/-- Parses an input: the failure, if any, and the parser afterwards, which
has forgotten everything if there is one. -/
def parse (p : Parser) (input : Input) : Option Fault × Parser :=
  Act.attempt (work input) cleared p.cleared

/-- Answers a request. -/
def answer (p : Parser) : Request → Option Fault × Parser
  | .parse input => p.parse input
  | .clear => (none, p.cleared)

end Parser

end Template

end Formula
