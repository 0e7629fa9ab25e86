/-
Templates as trees: a section owns the nodes between its tag and its end.
Comments and section ends are no part of the tree.

A block is read up to the end of its section, or to the end of the template
at the top; what follows it is returned. The end must name the section, in
any case, or be unnamed.
-/
import Formula.Template.Piece

namespace Formula

namespace Template

/-- A piece and the nodes inside it. -/
inductive Node where
  | mk (piece : Piece) (children : List Node)

namespace Node

def piece : Node → Piece
  | mk p _ => p

def children : Node → List Node
  | mk _ ns => ns

end Node

/-- The deepest nesting of sections. -/
def maxSections : Nat := 128

/-- Whether a section end closes a section. -/
def closes (opened : Option Piece) (sectionEnd : Piece) : Bool :=
  match opened, sectionEnd.text with
  | none, _ => false
  | some _, none => true
  | some p, some name => p.text.any fun n => sameName n name

/-- The failure at a section end that closes nothing. -/
def unexpectedEnd (p : Piece) : Fault := .atPlace (.unexpectedSectionEnd (p.text.getD "")) p.place

/-- The failure of a section without an end. -/
def notClosed (p : Piece) : Fault := .atPlace (.sectionNotClosed (p.text.getD "")) p.place

/-- Nodes that were read, and the pieces behind them. -/
structure Block (bound : Nat) where
  nodes : List Node
  rest : List Piece
  short : rest.length ≤ bound

/-- The nodes of a block `depth` sections deep, up to the end of the section
that was opened. -/
def block (depth : Nat) (opened : Option Piece) (ps : List Piece) :
    Except Fault (Block ps.length) :=
  match ps with
  | [] =>
    match opened with
    | none => .ok ⟨[], [], by simp⟩
    | some p => .error (notClosed p)
  | p :: ps =>
    match p.kind with
    | .comment =>
      (block depth opened ps).map fun b =>
        ⟨b.nodes, b.rest, by have := b.short; simp; omega⟩
    | .sectionStart | .invertedStart =>
      if maxSections ≤ depth then .error (.atPlace (.sectionsTooDeep maxSections) p.place)
      else
        match block (depth + 1) (some p) ps with
        | .error fault => .error fault
        | .ok inner =>
          (block depth opened inner.rest).map fun b =>
            ⟨.mk p inner.nodes :: b.nodes, b.rest, by
              have := b.short
              have := inner.short
              simp
              omega⟩
    | .sectionEnd => if closes opened p then .ok ⟨[], ps, by simp⟩ else .error (unexpectedEnd p)
    | .value | .variable | .escapedVariable =>
      (block depth opened ps).map fun b =>
        ⟨.mk p [] :: b.nodes, b.rest, by have := b.short; simp; omega⟩
termination_by ps.length
decreasing_by
  · simp
  · simp
  · have := inner.short
    simp
    omega
  · simp

/-- The tree of a list of pieces. -/
def tree (ps : List Piece) : Except Fault (List Node) := (block 0 none ps).map Block.nodes

end Template

end Formula
