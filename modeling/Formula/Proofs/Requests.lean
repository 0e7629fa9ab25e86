/-
What parsers answer over time. A parser begins by forgetting what it held,
and forgets what it found if it fails; so it answers as a new one does,
whatever it was asked before and however far it came then (`answer_eq`).

A calculator takes over what its parser reports and holds. So one that is
given what cannot be compiled keeps everything but its expression, of which
nothing is left.

Main statement: `parse_after_history`.
-/
import Formula.Expr.Calculator
import Formula.Proofs.Expr.Descent
import Formula.Proofs.Template.Phases

namespace Formula

-- ================================================================= parsers

namespace Expr.Parser

/-- A parser answers as a new one does. -/
theorem answer_eq (p : Parser) (r : Request) : p.answer r = new.answer r := by
  cases r with
  | parse input => rfl
  | clear => rfl

end Expr.Parser

namespace Template.Parser

/-- A parser answers as a new one does. -/
theorem answer_eq (p : Parser) (r : Request) : p.answer r = new.answer r := by
  cases r with
  | parse input => rfl
  | clear => rfl

end Template.Parser

-- ============================================================= calculators

namespace Calculator

/-- Compiles an input. -/
def setInput (c : Calculator) : Input → Option Fault × Calculator
  | .text text => c.setExpression text
  | .tokens tokens => c.setTokens tokens

theorem setInput_eq (c : Calculator) (input : Input) :
    c.setInput input = c.accept (Expr.Compiled.ofInput input) := by
  cases input with
  | text text => rfl
  | tokens tokens => rfl

/-- A calculator reports what its parser does, whatever that was asked
before, and holds the expression that it holds. -/
theorem setInput_parse (c : Calculator) (p : Expr.Parser) (input : Input) :
    (c.setInput input).1 = (p.parse input).1
      ∧ (c.setInput input).2.compiled = (p.parse input).2.toCompiled := by
  obtain ⟨hreport, hcompiled⟩ := p.parse_eq input
  rw [setInput_eq, hreport, hcompiled]
  exact ⟨rfl, rfl⟩

/-- What cannot be compiled changes nothing but the expression. -/
theorem setInput_failed {c : Calculator} {input : Input} (h : (c.setInput input).1 ≠ none) :
    (c.setInput input).2 = { c with compiled := .empty } := by
  rw [setInput_eq] at h ⊢
  cases hattempt : Expr.Compiled.ofInput input with
  | ok compiled =>
      rw [hattempt] at h
      exact absurd rfl h
  | error fault =>
      have hscope : c.scope.addMissing [] = c.scope := rfl
      unfold accept Expr.Compiled.kept Expr.Compiled.empty
      dsimp only
      rw [hscope, ite_self]

end Calculator

-- =============================================================== forgetting

/-- After any history a parser answers what a new one would and holds what a
new one would, which is what is kept of one attempt at the input; and if it
fails it is as new. A calculator that is given what its parser refuses keeps
its variables, functions and operations, and no expression. -/
theorem parse_after_history :
    (∀ (history : List Request) (input : Input),
      let p := stateAfter Expr.Parser.answer .new history
      p.parse input = Expr.Parser.new.parse input
        ∧ ((p.parse input).1, (p.parse input).2.toCompiled)
          = Expr.Compiled.kept (Expr.Compiled.ofInput input)
        ∧ ((p.parse input).1 ≠ none → (p.parse input).2 = .new))
    ∧ (∀ (history : List Request) (input : Input),
      let p := stateAfter Template.Parser.answer .new history
      p.parse input = Template.Parser.new.parse input
        ∧ p.parse input = Template.Parsed.kept (Template.Parsed.ofInput input)
        ∧ ((p.parse input).1 ≠ none → (p.parse input).2 = .new))
    ∧ ∀ (c : Calculator) (history : List Request) (input : Input),
      let p := stateAfter Expr.Parser.answer .new history
      (c.setInput input).1 = (p.parse input).1
        ∧ (c.setInput input).2.compiled = (p.parse input).2.toCompiled
        ∧ ((c.setInput input).1 ≠ none → (c.setInput input).2 = { c with compiled := .empty }) := by
  refine ⟨fun history input => ?_, fun history input => ?_, fun c history input => ?_⟩
  · have heq := (stateAfter Expr.Parser.answer .new history).parse_eq input
    exact ⟨Expr.Parser.answer_eq _ (.parse input), Prod.ext heq.1 heq.2,
      Expr.Parser.parse_failed⟩
  · exact ⟨Template.Parser.answer_eq _ (.parse input), Template.Parser.parse_eq _ input,
      Template.Parser.parse_failed⟩
  · obtain ⟨hreport, hcompiled⟩ := c.setInput_parse (stateAfter Expr.Parser.answer .new history)
      input
    exact ⟨hreport, hcompiled, Calculator.setInput_failed⟩

/-- A parenthesis that nothing closes, after a text that breaks off inside
one. -/
theorem parse_after_history_unclosed :
    let input := Input.tokens [⟨.symbol, "(", .origin⟩]
    let history := [Request.parse (.text "(a"), .clear, .parse input]
    let c := { Calculator.new with scope := Scope.empty.add "a" (.integer 1) }
    (((stateAfter Expr.Parser.answer .new history).parse input).1 ≠ none
      ∧ ((stateAfter Expr.Parser.answer .new history).parse input).2 = .new)
    ∧ (((stateAfter Template.Parser.answer .new history).parse input).1 ≠ none
      ∧ ((stateAfter Template.Parser.answer .new history).parse input).2 = .new)
    ∧ (c.setInput input).1 ≠ none
    ∧ (c.setInput input).2 = { c with compiled := .empty } := by
  intro input history c
  obtain ⟨hexpr, htemplate, hcalculator⟩ := parse_after_history
  refine ⟨⟨by decide, ?_⟩, ⟨by decide, ?_⟩, by decide, ?_⟩
  · exact (hexpr history input).2.2 (by decide)
  · exact (htemplate history input).2.2 (by decide)
  · exact (hcalculator c history input).2.2 (by decide)

end Formula
