/-
Templates with all that is known about them: the source, its tokens and
pieces, the tree, and the names it refers to. What is found depends on the
source alone; a template that cannot be read leaves nothing.
-/
import Formula.Template.Node
import Formula.Text.Names

namespace Formula

namespace Template

/-- A template and what reading it found. -/
structure Parsed where
  source : String
  tokens : List Token
  pieces : List Piece
  nodes : List Node
  names : List String

namespace Parsed

/-- Before anything is read. -/
def empty : Parsed := ⟨"", [], [], [], []⟩

/-- Reads the tokens of a source. -/
def ofSource (source : String) (tokens : List Token) : Except Fault Parsed := do
  let pieces ← Template.pieces tokens
  let nodes ← Template.tree pieces
  .ok ⟨source, tokens, pieces, nodes, Names.distinct (pieces.filterMap Piece.reference?)⟩

/-- Reads a text. -/
def ofText (text : String) : Except Fault Parsed := do
  let tokens ← Template.tokens text
  ofSource text tokens

/-- Reads tokens that come from elsewhere; their texts together are the
source. -/
def ofTokens (tokens : List Token) : Except Fault Parsed :=
  ofSource (String.join (tokens.map Token.text)) tokens

/-- What is kept of an attempt to read a template: the failure and nothing
read, or no failure and what was read. -/
def kept : Except Fault Parsed → Option Fault × Parsed
  | .error fault => (some fault, empty)
  | .ok parsed => (none, parsed)

end Parsed

end Template

end Formula
