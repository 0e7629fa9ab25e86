/-
The general purpose lexer: words, numbers with a sign, texts in either
quote, comments from a number sign to the end of the line, and the symbols
of two characters that most notations share.
-/
import Formula.Lex.Lexer

namespace Formula

namespace Lexer

/-- The characters up to the space. -/
def controlBlanks : CharClass := .ofRanges [('\x00', ' ')]

/-- The letters outside ASCII that belong to words. -/
def foreignLetters : List (Char × Char) := [('\u00c0', '\u00ff'), ('\u0100', '\ufffe')]

/-- The word characters of general texts. -/
def generalLetters : CharClass :=
  .ofRanges ([('a', 'z'), ('A', 'Z'), ('0', '9'), ('-', '-'), ('_', '_')] ++ foreignLetters)

/-- The roles every lexer here starts from: symbols throughout, and blanks
up to the space. -/
def baseRoles : List (Char × Char × Role) :=
  [('\x00', '\ufffe', .symbol), ('\x00', ' ', .whitespace)]

/-- Ranges of characters with one role. -/
def rolesOf (role : Role) (ranges : List (Char × Char)) : List (Char × Char × Role) :=
  ranges.map fun r => (r.1, r.2, role)

/-- Symbols that are nothing but symbols. -/
def plainSymbols (symbols : List String) : Symbols Token.Kind :=
  .ofList (symbols.map fun s => (s, .symbol))

/-- The general purpose lexer. -/
def general : Lexer where
  options := { Options.none with
    skipUnknown := true, skipWhitespaces := true, skipComments := true, skipEof := true }
  roles := .ofList (baseRoles
    ++ rolesOf .word ([('a', 'z'), ('A', 'Z')] ++ foreignLetters)
    ++ rolesOf .number [('-', '-'), ('0', '9'), ('.', '.')]
    ++ rolesOf .quote [('"', '"'), ('\x27', '\x27')]
    ++ rolesOf .comment [('#', '#')])
  comments := some (.comments .line)
  numbers := some (.numbers .signed)
  quotes := some .verbatim
  symbols := some (plainSymbols ["<>", "<=", ">=", "!=", "==", "&&", "||"])
  blanks := some (.blanks controlBlanks)
  letters := some (.word generalLetters)

end Lexer

end Formula
