/-
The lexer of templates. Outside tags, the text up to the next two opening
braces is one token; inside, words, brackets and single symbols are read
and blanks are dropped. The closing bracket of a tag ends it.
-/
import Formula.Lex.General

namespace Formula

namespace Template

/-- The characters of words in tags. -/
def tagLetters : List (Char × Char) :=
  [('a', 'z'), ('A', 'Z'), ('0', '9'), ('_', '_'), ('.', '.'), ('-', '-')] ++ Lexer.foreignLetters

/-- The lexer inside tags. -/
def tagLexer : Lexer where
  options := { Lexer.Options.none with skipWhitespaces := true, skipEof := true }
  roles := .ofList (Lexer.baseRoles ++ Lexer.rolesOf .word tagLetters)
  comments := none
  numbers := none
  quotes := none
  symbols := some (Lexer.plainSymbols
    ["\x7b\x7b", "\x7d\x7d", "\x7b\x7b\x7b", "\x7d\x7d\x7d"])
  blanks := some (.blanks Lexer.controlBlanks)
  letters := some (.word (.ofRanges tagLetters))

/-- The brackets that open a tag: around an escaped variable and all other
tags, and around a variable inserted as it is. -/
def opening : String := "\x7b\x7b"

def openingRaw : String := "\x7b\x7b\x7b"

/-- The brackets that close a tag. -/
def closing : String := "\x7d\x7d"

def closingRaw : String := "\x7d\x7d\x7d"

/-- Whether a token is one of the brackets that open a tag. -/
def isOpening (t : Token) : Bool :=
  t.kind == .symbol && (t.text == opening || t.text == openingRaw)

/-- Whether a token is one of the brackets that close a tag. -/
def isClosing (t : Token) : Bool :=
  t.kind == .symbol && (t.text == closing || t.text == closingRaw)

/-- The text in front of the next tag, as a token if there is any, and the
cursor behind it. Inside a tag there is none. -/
def textBefore (outside : Bool) (cur : Cursor) : List Token × Cursor :=
  if outside then
    let text := Rule.proseText cur.rest
    let token : List Token := if text = [] then [] else [⟨.special, String.ofList text, cur.place⟩]
    (token, cur.skip text.length)
  else ([], cur)

theorem textBefore_rest_le (outside : Bool) (cur : Cursor) :
    (textBefore outside cur).2.rest.length ≤ cur.rest.length := by
  cases outside with
  | true => simp [textBefore]
  | false => exact Nat.le_refl _

/-- The tokens from a cursor on to the end of the template, where the cursor
stands outside tags or inside one. -/
def tokensFrom (outside : Bool) (cur : Cursor) : Except Fault (List Token) :=
  match _h : tagLexer.next (textBefore outside cur).2 with
  | (.error fault, _) => .error fault
  | (.ok none, _) => .ok (textBefore outside cur).1
  | (.ok (some t), after) =>
    if _ht : t.kind = .eof then .ok ((textBefore outside cur).1 ++ [t])
    else (tokensFrom (isClosing t) after).map ((textBefore outside cur).1 ++ t :: ·)
termination_by cur.rest.length
decreasing_by exact Nat.lt_of_lt_of_le (Lexer.next_shorter _h _ht) (textBefore_rest_le outside cur)

/-- The tokens of a template, which begins outside any tag. -/
def tokens (template : String) : Except Fault (List Token) := tokensFrom true (.start template)

end Template

end Formula
