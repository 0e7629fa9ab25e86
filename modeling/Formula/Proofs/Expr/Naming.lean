/-
What a text in double quotes names. It is a word to the lexer, whatever it
is (`tokens_quoted`), but a word of its own is looked up in the table of
reserved ones, quoted or not (`ofWord_eq_variable_iff`).

Main statement: a text in double quotes is an expression that reads the
variable of that name if and only if the text is not claimed by the grammar
(`ofText_quoted_iff`).
-/
import Formula.Expr.Compiled
import Formula.Proofs.Expr.Completeness
import Formula.Proofs.Expr.History
import Formula.Proofs.Expr.Spacing

namespace Formula

namespace Expr

-- ================================================================ quoting

/-- A name as it is written in an expression. -/
def quoted (name : String) : String := String.ofList (Quoted.encode '"' name.toList)

/-- A name in double quotes is one word, the name itself. -/
theorem tokens_quoted (name : String) :
    Lexer.expression.tokens (quoted name) = .ok [⟨.word, name, ⟨1, 1⟩⟩] := by
  have hlegible : Legible [(⟨.word, Quoted.encode '"' name.toList, name.toList⟩, [])] :=
    ⟨nofun, reads_name name.toList nofun, .nil, trivial⟩
  have htokens := tokens_legible hlegible
  rw [spaced, List.nil_append, spaced, List.append_nil] at htokens
  rw [quoted, htokens, placed, Lexer.Lexeme.token, String.ofList_toList]
  rfl

-- ========================================================== claimed words

/-- The texts that no word names a variable with, in capitals. -/
def claimed : List String := "TRUE" :: "FALSE" :: reserved.map Prod.fst

/-- No reserved word has the part of a name. -/
theorem ne_variable_of_reserved? {text : String} {part : Part} (h : reserved? text = some part) :
    part ≠ .variable := by
  obtain ⟨entry, hfind, rfl⟩ := Option.map_eq_some_iff.1 h
  have hparts : ∀ entry ∈ reserved, entry.2 ≠ .variable := by decide
  exact hparts entry (List.mem_of_find?_eq_some hfind)

theorem reserved?_eq_none_iff {text : String} :
    reserved? text = none ↔ capitals text ∉ reserved.map Prod.fst := by
  unfold reserved?
  rw [Option.map_eq_none_iff, List.find?_eq_none, List.mem_map, not_exists]
  refine forall_congr' fun entry => ?_
  rw [not_and, beq_iff_eq]

/-- A word is the name of a variable where it is not claimed. -/
theorem ofWord_eq_variable_iff {text : String} :
    ofWord text = (.variable, .string text) ↔ capitals text ∉ claimed := by
  unfold ofWord truth? claimed
  rw [List.mem_cons, List.mem_cons, not_or, not_or, ← reserved?_eq_none_iff]
  by_cases htrue : capitals text = "TRUE"
  · simp [htrue]
  by_cases hfalse : capitals text = "FALSE"
  · simp [hfalse]
  rw [if_neg htrue, if_neg hfalse]
  dsimp only
  cases hreserved : reserved? text with
  | none => simp [htrue, hfalse]
  | some part => simp [ne_variable_of_reserved? hreserved]

-- ============================================================ expressions

/-- An expression that is nothing but the name of a variable, written in
double quotes. -/
def Compiled.ofName (name : String) : Compiled :=
  ⟨quoted name, [⟨.word, name, ⟨1, 1⟩⟩], [⟨.variable, .string name, ⟨1, 1⟩⟩],
    [⟨.variable name, ⟨1, 1⟩⟩], [name]⟩

theorem symbols_word (name : String) (place : Place) :
    symbols [⟨.word, name, place⟩] = .ok [⟨(ofWord name).1, (ofWord name).2, place⟩] := rfl

theorem tree_name (name : String) (place : Place) :
    tree [⟨.variable, .string name, place⟩] = .ok (.variable name place) := by
  have hatom : Derives .indexed [⟨.variable, .string name, place⟩] (.variable name place) :=
    .variable rfl
  have hdepth : (Tree.variable name place).depth ≤ maxDepth := by
    rw [Tree.depth]
    decide
  exact tree_eq_ok_iff.2 ⟨hatom.sentence, hdepth⟩

/-- What is left to compile of a text whose tokens are known. -/
theorem Compiled.ofText_of_tokens {text : String} {tokens : List Token}
    (h : Lexer.expression.tokens text = .ok tokens) :
    ofText text = ofSource text tokens := by
  unfold ofText
  rw [h]
  rfl

/-- A text in double quotes reads the variable of that name, and nothing
else, if and only if the text is not claimed: the quotes make a word of any
text, but do not keep it from being a truth value, null or an operator. -/
theorem ofText_quoted_iff (name : String) :
    Compiled.ofText (quoted name) = .ok (.ofName name) ↔ capitals name ∉ claimed := by
  rw [Compiled.ofText_of_tokens (tokens_quoted name), Compiled.ofSource_eq_ok_iff,
    ← ofWord_eq_variable_iff]
  constructor
  · rintro ⟨ss, t, hss, -, hcompiled⟩
    have hsymbols : [⟨.variable, .string name, ⟨1, 1⟩⟩] = ss :=
      congrArg Compiled.symbols hcompiled
    rw [symbols_word, ← hsymbols] at hss
    injection hss with hsame
    injection hsame with hsymbol
    injection hsymbol with hpart hvalue
    exact Prod.ext hpart hvalue
  · intro hword
    refine ⟨_, .variable name ⟨1, 1⟩, symbols_word name ⟨1, 1⟩, ?_, ?_⟩
    · rw [hword]
      exact tree_name name ⟨1, 1⟩
    · rw [hword]
      rfl

/-- `null` in double quotes is the constant, and reads no variable. -/
theorem ofText_quoted_null :
    Compiled.ofText "\"null\"" = .ok ⟨"\"null\"", [⟨.word, "null", ⟨1, 1⟩⟩],
        [⟨.null, .string "null", ⟨1, 1⟩⟩], [⟨.constant .null, ⟨1, 1⟩⟩], []⟩
      ∧ Compiled.ofText (quoted "null") ≠ .ok (.ofName "null") := by
  have hatom : Derives .indexed [⟨.null, .string "null", ⟨1, 1⟩⟩] (.constant .null ⟨1, 1⟩) :=
    .null rfl
  have htree := tree_eq_ok_iff.2 ⟨hatom.sentence, by decide⟩
  have hconstant := (Compiled.ofText_of_tokens (tokens_quoted "null")).trans
    (Compiled.ofSource_eq_ok_iff.2 ⟨_, _, symbols_word "null" ⟨1, 1⟩, htree, rfl⟩)
  refine ⟨hconstant, ?_⟩
  rw [hconstant]
  intro hsame
  cases hsame

end Expr

end Formula
