/-
Texts as literals. Main statement: quoting a text and reading it back are
inverse wherever the quoted text stands (`quoting_inverse`).

What the rule for quotes reads at a quote is a quoted text that no quote
goes on with, to its end and no further; where there is none, it fails at
the opening quote (`readWith_quote_cases`). Every character can be the quote
here: the rule takes the one it finds. An expression in which nothing but a
text in single quotes stands is that text (`evaluate_literal`).
-/
import Formula.Proofs.Expr.Naming
import Formula.Proofs.Lex.LongestMatch

namespace Formula

-- ================================================================== reading

namespace Lexer

open Quoted

/-- A lexer whose rule for quotes keeps quoted texts as they are written. -/
def quoting (lx : Lexer) : Lexer := { lx with quotes := some .verbatim }

/-- Whether a text is in front of some characters as it is written in quotes,
and no quote goes on with it. -/
def QuotedAhead (q : Char) (cs text : List Char) : Prop :=
  ∃ rest, cs = encode q text ++ rest ∧ rest.head? ≠ some q

section

variable (lx : Lexer) {q : Char} {cur : Cursor} {text : List Char}

theorem readAs_quote (cs : List Char) :
    lx.quoting.readAs .quote cs = some (Rule.Quotes.read .verbatim cs) := by
  show some (((Rule.Quotes.read .verbatim cs).map some).map (·.getD (lx.quoting.symbol cs))) = _
  cases Rule.Quotes.read .verbatim cs <;> rfl

/-- A quoted text in front is read as it is written. -/
theorem readWith_quotedAhead (h : QuotedAhead q cur.rest text) :
    lx.quoting.readWith .quote cur
      = (.ok (some ⟨.quoted, String.ofList (encode q text), cur.place⟩),
          cur.skip (encode q text).length) := by
  obtain ⟨rest, hsplit, hend⟩ := h
  unfold readWith
  rw [readAs_quote, hsplit, encode_append, Rule.Quotes.read]
  dsimp only
  rw [closing_double hend]
  rfl

/-- At a quote, either a quoted text is in front, or there is none and reading
fails at the quote. -/
theorem readWith_quote_cases (hq : cur.rest.head? = some q) :
    (∃ text, QuotedAhead q cur.rest text)
      ∨ lx.quoting.readWith .quote cur
          = (.error (.atPlace (.unterminatedString q) cur.place), cur.toEnd) := by
  obtain ⟨r, hrest⟩ := List.head?_eq_some_iff.1 hq
  cases hclosing : closing q r with
  | some body =>
      obtain ⟨text, rest, rfl, hend, -⟩ := closing_eq_some_iff.1 hclosing
      exact .inl ⟨text, rest, hrest.trans (encode_append q text rest).symm, hend⟩
  | none =>
      refine .inr ?_
      unfold readWith
      rw [readAs_quote, hrest, Rule.Quotes.read]
      dsimp only
      rw [hclosing]

end

end Lexer

-- =============================================================== evaluation

namespace Expr

/-- A text as a literal of an expression. -/
def literal (text : String) : String := String.ofList (Quoted.encode '\'' text.toList)

/-- A literal is one token, the text itself. -/
theorem tokens_literal (text : String) :
    Lexer.expression.tokens (literal text) = .ok [⟨.quoted, text, ⟨1, 1⟩⟩] := by
  have hlegible : Legible [(⟨.quoted, Quoted.encode '\'' text.toList, text.toList⟩, [])] :=
    ⟨nofun, reads_quoted text.toList nofun, .nil, trivial⟩
  have htokens := tokens_legible hlegible
  rw [spaced, List.nil_append, spaced, List.append_nil] at htokens
  rw [literal, htokens, placed, Lexer.Lexeme.token, String.ofList_toList]
  rfl

/-- A literal compiles to a constant and nothing else. -/
theorem ofText_literal (text : String) :
    Compiled.ofText (literal text)
      = .ok ⟨literal text, [⟨.quoted, text, ⟨1, 1⟩⟩], [⟨.constant, .string text, ⟨1, 1⟩⟩],
          [⟨.constant (.string text), ⟨1, 1⟩⟩], []⟩ := by
  have hatom : Derives .indexed [⟨.constant, .string text, ⟨1, 1⟩⟩]
      (.constant (.string text) ⟨1, 1⟩) := .constant rfl
  have hdepth : (Tree.constant (.string text) ⟨1, 1⟩).depth ≤ maxDepth := by
    rw [Tree.depth]
    decide
  have htree := tree_eq_ok_iff.2 ⟨hatom.sentence, hdepth⟩
  exact (Compiled.ofText_of_tokens (tokens_literal text)).trans
    (Compiled.ofSource_eq_ok_iff.2 ⟨_, _, rfl, htree, rfl⟩)

/-- A calculator takes a literal for the text, whatever variables and
functions there are. -/
theorem evaluate_literal (c : Calculator) (text : String) (valueOf? : String → Option Value)
    (functionOf? : String → Option (List Value → Operations → Outcome)) :
    (c.setExpression (literal text)).1 = none
      ∧ (c.setExpression (literal text)).2.evaluateIn valueOf? functionOf?
        = .ok (.string text) := by
  unfold Calculator.setExpression
  rw [ofText_literal]
  exact ⟨rfl, rfl⟩

end Expr

-- ================================================================= inverses

namespace Lexer

open Quoted

/-- Quoting and reading are inverse. A quoted text that no quote goes on with
is read to its end and no further, wherever it stands, and decoded to the text
that was quoted. What is read at a quote is what it is decoded to, quoted
again; and reading fails there, at the opening quote, if and only if no quoted
text is in front. So a literal evaluates to the text it was made of. -/
theorem quoting_inverse (lx : Lexer) (q : Char) :
    (∀ (text rest : List Char) (cur : Cursor), cur.rest = encode q text ++ rest →
        rest.head? ≠ some q →
      ∃ after, lx.quoting.readWith .quote cur
          = (.ok (some ⟨.quoted, String.ofList (encode q text), cur.place⟩), after)
        ∧ cur.Crosses (encode q text) after ∧ decode q (encode q text) = text)
      ∧ (∀ (cur after : Cursor) (t : Token), cur.rest.head? = some q →
        lx.quoting.readWith .quote cur = (.ok (some t), after) →
        encode q (decode q t.text.toList) = t.text.toList)
      ∧ (∀ cur : Cursor, cur.rest.head? = some q →
        ((lx.quoting.readWith .quote cur).1
            = .error (.atPlace (.unterminatedString q) cur.place)
          ↔ ¬∃ text, QuotedAhead q cur.rest text)
        ∧ ∀ fault, (lx.quoting.readWith .quote cur).1 = .error fault →
          fault = .atPlace (.unterminatedString q) cur.place
            ∧ fault.cause.code = .unexpectedEnd)
      ∧ ∀ (c : Calculator) (text : String) (valueOf? : String → Option Value)
          (functionOf? : String → Option (List Value → Operations → Outcome)),
        (c.setExpression (Expr.literal text)).1 = none
          ∧ (c.setExpression (Expr.literal text)).2.evaluateIn valueOf? functionOf?
            = .ok (.string text) := by
  refine ⟨?_, ?_, ?_, Expr.evaluate_literal⟩
  · intro text rest cur hsplit hend
    have hread := readWith_quotedAhead lx ⟨rest, hsplit, hend⟩
    exact ⟨_, hread, Cursor.crosses_of_prefix ⟨rest, hsplit.symm⟩, decode_encode q text⟩
  · intro cur after t hq hread
    rcases readWith_quote_cases lx hq with ⟨text, hahead⟩ | hfails
    · rw [readWith_quotedAhead lx hahead] at hread
      cases hread
      rw [String.toList_ofList, decode_encode]
    · rw [hfails] at hread
      cases hread
  · intro cur hq
    rcases readWith_quote_cases lx hq with ⟨text, hahead⟩ | hfails
    · rw [readWith_quotedAhead lx hahead]
      refine ⟨⟨fun hfault => ?_, fun hnone => absurd ⟨text, hahead⟩ hnone⟩,
        fun fault hfault => ?_⟩
      · cases hfault
      · cases hfault
    · rw [hfails]
      refine ⟨⟨fun _ => ?_, fun _ => rfl⟩, fun fault hfault => ?_⟩
      · rintro ⟨text, hahead⟩
        rw [readWith_quotedAhead lx hahead] at hfails
        cases hfails
      · cases hfault
        exact ⟨rfl, rfl⟩

/-- A text of quotes at either end, which no quote goes on with, and one whose
last quote is doubled and so closes nothing. -/
theorem quoting_inverse_quotes :
    let quoted := (Cursor.start "x'''a'''''b").skip 1
    let unclosed := Cursor.start "'a''"
    let text := "'a''".toList
    (quoted.rest = encode '\'' text ++ ['b'] ∧ ['b'].head? ≠ some '\'')
      ∧ (∃ after, general.quoting.readWith .quote quoted
          = (.ok (some ⟨.quoted, "'''a'''''", ⟨1, 2⟩⟩), after)
        ∧ quoted.Crosses (encode '\'' text) after ∧ decode '\'' (encode '\'' text) = text)
      ∧ unclosed.rest.head? = some '\''
      ∧ ((general.quoting.readWith .quote unclosed).1
          = .error (.atPlace (.unterminatedString '\'') ⟨1, 1⟩)
        ↔ ¬∃ text, QuotedAhead '\'' unclosed.rest text) := by
  intro quoted unclosed text
  obtain ⟨hreads, -, hfails, -⟩ := quoting_inverse general '\''
  have hrest : quoted.rest = encode '\'' text ++ ['b'] := by decide
  have hend : ['b'].head? ≠ some '\'' := by decide
  have hunclosed : unclosed.rest.head? = some '\'' := by decide
  exact ⟨⟨hrest, hend⟩, hreads text ['b'] quoted hrest hend, hunclosed,
    (hfails unclosed hunclosed).1⟩

end Lexer

end Formula
