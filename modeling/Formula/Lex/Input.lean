/-
What parsers are given, and what they are asked over time. A parser holds
what it found last; what it is asked next finds it in that state.
-/
import Formula.Fault
import Formula.Lex.Token

namespace Formula

/-- Something to parse: a text, or tokens that were read elsewhere. -/
inductive Input where
  | text (text : String)
  | tokens (tokens : List Token)

/-- Something to ask of a parser. -/
inductive Request where
  | parse (input : Input)
  | clear

/-- The state after some requests, one after the other, whatever was
answered. -/
def stateAfter {σ : Type} (answer : σ → Request → Option Fault × σ) (start : σ)
    (history : List Request) : σ :=
  history.foldl (fun state request => (answer state request).2) start

end Formula
