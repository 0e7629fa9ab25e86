/-
Tokens: pieces of a text with a kind and the place of their first character.
-/
import Formula.Text.Place

namespace Formula

namespace Token

/-- The kinds of tokens. -/
inductive Kind where
  /-- A character that no rule reads. -/
  | unknown
  /-- The end of the text. -/
  | eof
  /-- The end of a line. -/
  | eol
  | float
  | integer
  | hexDecimal
  /-- Any number, where kinds of numbers are not told apart. -/
  | number
  /-- An operator or a mark. -/
  | symbol
  | quoted
  | word
  | keyword
  | whitespace
  | comment
  /-- Text outside the tags of a template. -/
  | special
  deriving DecidableEq, Repr

end Token

/-- A token. -/
structure Token where
  kind : Token.Kind
  text : String
  place : Place
  deriving DecidableEq, Repr

end Formula
