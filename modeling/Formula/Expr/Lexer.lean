/-
The lexer of expressions. Signs are operators and never part of a number;
text in single quotes is a literal, text in double quotes names a variable;
comments are those with slashes.
-/
import Formula.Lex.General

namespace Formula

namespace Lexer

/-- The characters a word of an expression can begin with. -/
def expressionInitials : List (Char × Char) :=
  [('a', 'z'), ('A', 'Z'), ('_', '_'), ('$', '$')] ++ foreignLetters

/-- The word characters of expressions. -/
def expressionLetters : CharClass :=
  .ofRanges ([('a', 'z'), ('A', 'Z'), ('0', '9'), ('_', '_'), ('$', '$')] ++ foreignLetters)

/-- The lexer of expressions. -/
def expression : Lexer where
  options := { Options.none with
    skipWhitespaces := true, skipComments := true, skipEof := true, decodeStrings := true }
  roles := .ofList (baseRoles
    ++ rolesOf .word expressionInitials
    ++ rolesOf .number [('0', '9'), ('.', '.')]
    ++ rolesOf .quote [('"', '"'), ('\x27', '\x27')]
    ++ rolesOf .comment [('/', '/')])
  comments := some (.comments .slashed)
  numbers := some (.numbers .scientific)
  quotes := some .naming
  symbols := some (plainSymbols ["<=", ">=", "<>", "!=", "<<", ">>"])
  blanks := some (.blanks controlBlanks)
  letters := some (.word expressionLetters)

end Lexer

end Formula
