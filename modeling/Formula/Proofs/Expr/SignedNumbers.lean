/-
Decimal texts of integers as expressions. A sign is no part of a number: it is an
operator, and what is behind it is read on its own. So the text of an integer below zero
is two lexemes (`signedLexemes`), and its symbols are the opposite of a constant
(`Derives.minus`). The constant is the number without its sign, an integer where 64 bits
hold it and a float where they do not.

Main statement: a new calculator evaluates the decimal text of an integer to the
integer, with one exception (`evaluate_integerText`). The least integer has no opposite
among the integers, so the number behind its sign is a float, and so is the opposite of
that.
-/
import Formula.Proofs.Expr.Calls
import Formula.Proofs.Expr.Numerals

namespace Formula

namespace Expr

-- =============================================================== lexemes

/-- The digits of a number. -/
def digitsLexeme (m : Nat) : Lexeme := .plain .integer (digitsOf m)

/-- The lexemes of the decimal text of an integer. -/
def signedLexemes (n : Int) : List (Lexeme × List Char) :=
  if n < 0 then [(markLexeme '-', []), (digitsLexeme n.natAbs, [])]
  else [(digitsLexeme n.natAbs, [])]

theorem spaced_signed (n : Int) : spaced (signedLexemes n) = integerText n := by
  unfold signedLexemes integerText
  split
  · simp [spaced, markLexeme, digitsLexeme, Lexeme.plain]
  · simp [spaced, digitsLexeme, Lexeme.plain]

theorem legible_digits (m : Nat) : Legible [(digitsLexeme m, [])] := by
  have hread : Reads (digitsLexeme m) [] :=
    reads_digits (fun d => isDigit_of_mem_digitsOf) (digitsOf_ne_nil m) nofun
  exact ⟨nofun, hread, .nil, trivial⟩

/-- A minus sign begins nothing longer. -/
theorem reads_minus (rest : List Char) : Reads (markLexeme '-') rest := by
  have hmark : IsMark '-' := by
    unfold IsMark
    decide
  exact reads_single hmark (by simp [pairs]) (by decide) (by decide) rest

theorem legible_signed (n : Int) : Legible (signedLexemes n) := by
  unfold signedLexemes
  split
  · exact ⟨nofun, reads_minus _, .nil, legible_digits n.natAbs⟩
  · exact legible_digits n.natAbs

theorem tokens_integerText (n : Int) :
    Lexer.expression.tokens (String.ofList (integerText n)) = .ok (placed [] (signedLexemes n)) := by
  rw [← spaced_signed, tokens_legible (legible_signed n)]

-- =============================================================== symbols

/-- The value of a number without a sign. -/
def magnitude (m : Nat) : Value :=
  match Checked.fit m with
  | some n => .integer n
  | none => .float (Decimal.toFloat ⟨m, 0⟩)

theorem Denotes.eq_magnitude {m : Nat} {v : Value} (h : Denotes .integer (digitsOf m) v) :
    v = magnitude m := by
  unfold magnitude
  cases h with
  | integer fits same =>
      rw [numberOf_digitsOf] at fits same
      have hfit : Checked.fit m = some _ := Checked.fit_eq_some_iff.2 ⟨same, by
        simp only [Checked.least, Checked.greatest]
        omega⟩
      rw [hfit]
  | rounded large =>
      rw [numberOf_digitsOf] at large
      have hfit : Checked.fit m = none := Checked.fit_eq_none_iff.2 (.inr (by
        simp only [Checked.greatest]
        omega))
      rw [hfit, numberOf_digitsOf]

theorem classify_digits (m : Nat) (place : Place) :
    classify (Lexer.Lexeme.token (digitsLexeme m) place)
      = .ok (some (.constant, magnitude m)) := by
  have hdigits : ∀ d ∈ digitsOf m, isDigit d = true := fun d => isDigit_of_mem_digitsOf
  have hnumeral := Numeral.parts hdigits (.inl rfl) (.inl rfl) (.inl (digitsOf_ne_nil m))
  rw [List.append_nil, List.append_nil, if_pos ⟨rfl, rfl⟩] at hnumeral
  obtain ⟨v, hdenotes, hclassify⟩ := classify_numeral hnumeral place
  rw [← hdenotes.eq_magnitude]
  exact hclassify

/-- The contents of the symbols of the decimal text of an integer. -/
def signedContents (n : Int) : List (Part × Value) :=
  if n < 0 then [(.minus, .string "-"), (.constant, magnitude n.natAbs)]
  else [(.constant, magnitude n.natAbs)]

theorem classify_signed (n : Int) :
    (placed [] (signedLexemes n)).map classify
      = (signedContents n).map fun content => .ok (some content) := by
  have hminus := classify_mark
    (show reserved? (String.ofList ['-']) = some .minus by decide)
  unfold signedLexemes signedContents
  split
  · rw [placed, placed, List.map_cons, List.map_cons, hminus, classify_digits]
    rfl
  · rw [placed, List.map_cons, classify_digits]
    rfl

-- ================================================================== trees

/-- An atom behind signs is an expression. -/
theorem Derives.sentence_of_primary {ss : List Symbol} {t : Tree} (h : Derives .primary ss t) :
    Sentence ss t := by
  have hadditive : Derives (.chain .additive) ss t := .operand (.operand (.operand h))
  exact .operand (.comparison (.operand hadditive))

/-- What the symbols of the decimal text of an integer compute: the number, and below
zero its opposite. -/
def signedOutcome (n : Int) : Outcome :=
  if n < 0 then located ⟨1, 1⟩ (Coercion.negative (magnitude n.natAbs))
  else .ok (magnitude n.natAbs)

/-- The symbols are a sentence, with the sign at the place of the text. -/
theorem sentence_signed {n : Int} {ss : List Symbol}
    (h : ss.map Symbol.content = signedContents n)
    (hplace : ss.head?.map Symbol.place = some ⟨1, 1⟩) :
    ∃ t, Sentence ss t ∧ t.depth ≤ 2 ∧ t.code.length ≤ 2
      ∧ ∀ ctx : Context, (∀ v, ctx.operations.unary .negative v = Coercion.negative v) →
        t.value ctx = signedOutcome n := by
  unfold signedContents at h
  unfold signedOutcome
  split at h
  · next hn =>
    obtain ⟨s, behind, rfl, hs, hbehind⟩ := List.map_eq_cons_iff.1 h
    obtain ⟨d, rest, rfl, hd, hrest⟩ := List.map_eq_cons_iff.1 hbehind
    rw [List.map_eq_nil_iff.1 hrest]
    injection hs with hpart hvalue
    injection hd with hpart' hvalue'
    have hstart : s.place = ⟨1, 1⟩ := Option.some.inj hplace
    have hminus : Derives .primary [s, d]
        (.monadic (.plain .negative) (.constant d.value d.place) s.value.text s.place) :=
      .minus hpart (.unsigned (.constant hpart'))
    refine ⟨_, hminus.sentence_of_primary, Nat.le_refl 2, Nat.le_refl 2, fun ctx hctx => ?_⟩
    rw [if_pos hn, Tree.value, Tree.value, hstart, hvalue', ← hctx]
    rfl
  · next hn =>
    obtain ⟨d, rest, rfl, hd, hrest⟩ := List.map_eq_cons_iff.1 h
    rw [List.map_eq_nil_iff.1 hrest]
    injection hd with hpart hvalue
    have hconstant : Derives .indexed [d] (.constant d.value d.place) := .constant hpart
    refine ⟨_, hconstant.sentence, Nat.le_succ 1, Nat.le_succ 1, fun ctx hctx => ?_⟩
    rw [if_neg hn, Tree.value, hvalue]

-- ============================================================= evaluation

/-- A calculator evaluates the tree of a text with its own functions and operations. -/
theorem evaluate_of_sentence (c : Calculator) {text : String} {ts : List Token}
    {ss : List Symbol} {t : Tree} (hts : Lexer.expression.tokens text = .ok ts)
    (hss : symbols ts = .ok ss) (hsentence : Sentence ss t) (hdepth : t.depth ≤ maxDepth)
    (hlength : t.code.length < 2 ^ 63) :
    (c.setExpression text).1 = none
      ∧ ∃ valueOf?, (c.setExpression text).2.evaluate
        = t.value ⟨valueOf?, c.library.function?, c.operations⟩ := by
  have htree : tree ss = .ok t := tree_eq_ok_iff.2 ⟨hsentence, hdepth⟩
  have hcompiled : Compiled.ofSource text ts = .ok ⟨text, ts, ss, t.code, variableNames t.code⟩ :=
    Compiled.ofSource_eq_ok_iff.2 ⟨ss, t, hss, htree, rfl⟩
  have hset := congrArg c.accept ((Compiled.ofText_of_tokens hts).trans hcompiled)
  obtain ⟨valueOf?, hevaluate⟩ := evaluate_accept c
    ⟨text, ts, ss, t.code, variableNames t.code⟩
  unfold Calculator.setExpression
  rw [hset]
  refine ⟨rfl, valueOf?, ?_⟩
  rw [hevaluate, evaluate_of_run (run_code _ .empty hlength)]

theorem evaluate_signed (n : Int) :
    let attempt := Calculator.new.setExpression (String.ofList (integerText n))
    attempt.1 = none ∧ attempt.2.evaluate = signedOutcome n := by
  obtain ⟨ss, hss, hcontents, hplace⟩ := symbols_of_contents (classify_signed n)
  have hfirst : (placed [] (signedLexemes n)).head?.map Token.place = some ⟨1, 1⟩ := by
    unfold signedLexemes
    split <;> rfl
  obtain ⟨t, hsentence, hdepth, hlength, hvalue⟩ :=
    sentence_signed hcontents (hplace.trans hfirst)
  have hmax : maxDepth = 64 := rfl
  obtain ⟨hset, valueOf?, hevaluate⟩ := evaluate_of_sentence Calculator.new
    (tokens_integerText n) hss hsentence (by omega) (by omega)
  refine ⟨hset, ?_⟩
  rw [hevaluate]
  exact hvalue _ fun v => rfl

-- ================================================================= values

theorem magnitude_of_word {m : Nat} {k : Int64} (h : k.toInt = m) : magnitude m = .integer k := by
  unfold magnitude
  rw [← h, Checked.fit_toInt]

/-- The opposite of a number without a sign, where 64 bits hold both. -/
theorem signedOutcome_of_ne {n : Int64} (h : n ≠ Int64.minValue) :
    signedOutcome n.toInt = .ok (.integer n) := by
  have hlo := n.le_toInt
  have hhi := n.toInt_lt
  have hne : n.toInt ≠ Int64.minValue.toInt := fun heq => h (Int64.toInt_inj.1 heq)
  rw [Int64.toInt_minValue] at hne
  have hrange : Checked.least ≤ n.toInt.natAbs ∧ n.toInt.natAbs ≤ Checked.greatest := by
    simp only [Checked.least, Checked.greatest]
    omega
  obtain ⟨k, hk⟩ : ∃ k : Int64, k.toInt = n.toInt.natAbs :=
    ⟨Int64.ofInt n.toInt.natAbs, (Checked.fit_eq_some_iff.1 (if_pos hrange)).1⟩
  unfold signedOutcome
  rw [magnitude_of_word hk]
  split
  · next hn =>
    have hopposite : Checked.neg k = some n := by
      unfold Checked.neg
      rw [hk, ← Checked.fit_toInt n]
      exact congrArg Checked.fit (by omega)
    unfold Coercion.negative Coercion.orOverflow
    dsimp only
    rw [hopposite]
    rfl
  · next hn =>
    have hsame : k = n := Int64.toInt_inj.1 (by omega)
    rw [hsame]

/-- The number behind the sign of the least integer is a float. -/
theorem signedOutcome_least :
    signedOutcome Int64.minValue.toInt = .ok (.float (-9223372036854775808.0)) := rfl

-- ============================================================ main result

/-- A new calculator takes the decimal text of every integer for an expression, and
evaluates it to the integer, but for the least integer, which comes out as a float. -/
theorem evaluate_integerText (n : Int64) :
    let attempt := Calculator.new.setExpression (Value.integer n).text
    attempt.1 = none
      ∧ attempt.2.evaluate
        = .ok (if n = Int64.minValue then .float (-9223372036854775808.0) else .integer n) := by
  have htext : (Value.integer n).text = String.ofList (integerText n.toInt) := by rw [Value.text]
  rw [htext]
  obtain ⟨hset, hevaluate⟩ := evaluate_signed n.toInt
  refine ⟨hset, ?_⟩
  rw [hevaluate]
  split
  · next hleast =>
    rw [hleast]
    exact signedOutcome_least
  · next hne => exact signedOutcome_of_ne hne

/-- The decimal text of the least integer does not evaluate to it. -/
theorem evaluate_leastText :
    (Value.integer Int64.minValue).text = "-9223372036854775808"
      ∧ (Calculator.new.setExpression "-9223372036854775808").1 = none
      ∧ (Calculator.new.setExpression "-9223372036854775808").2.evaluate
        ≠ .ok (.integer Int64.minValue) := by
  have htext : String.ofList (integerText Int64.minValue.toInt) = "-9223372036854775808" := by
    decide
  obtain ⟨hset, hevaluate⟩ := evaluate_signed Int64.minValue.toInt
  rw [htext] at hset hevaluate
  refine ⟨by rw [Value.text, htext], hset, ?_⟩
  rw [hevaluate, signedOutcome_least]
  intro heq
  cases heq

end Expr

end Formula
