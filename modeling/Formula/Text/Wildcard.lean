/-
Wildcard patterns: `%` stands for any run of characters, `_` for any one
character, and every other character for itself in either case. A pattern
speaks of the whole text. It is written as a regular expression, and the
engine for these decides.
-/
import Formula.Text.Regex

namespace Formula.Wildcard

/-- How a character of a pattern is written in an expression, with the way of
escaping that an engine has. -/
def spell (escape : List Char → List Char) (a : Char) : List Char :=
  if a = '%' then ['.', '*'] else if a = '_' then ['.'] else escape [a]

/-- The expression for a pattern. -/
def expression (escape : List Char → List Char) (pattern : List Char) : List Char :=
  '^' :: (pattern.flatMap (spell escape) ++ ['$'])

/-- The search for the texts that match a pattern, in either case and across
lines. -/
def build (engine : Regex.Engine) (pattern : List Char) : Except String (List Char → Bool) :=
  engine.build ⟨true, true⟩ (expression engine.escape pattern)

end Formula.Wildcard
