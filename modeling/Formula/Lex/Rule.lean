/-
The rules that read single tokens. A rule looks at the characters that are
left and takes a lexeme from the front of them: the characters taken, and
the kind and text of the token they make. Text and characters taken are the
same, except where a rule decodes what it reads.

A rule may take nothing, or hand the characters over to the rule for
symbols; what happens then is the lexer's business.
-/
import Formula.Fault
import Formula.Lex.Token
import Formula.Number.Digits
import Formula.Text.CharMap
import Formula.Text.Quoted
import Formula.Text.Symbols

namespace Formula

/-- What a rule takes from the front of a text. -/
structure Lexeme where
  kind : Token.Kind
  /-- The characters taken. -/
  source : List Char
  /-- The text of the token. -/
  text : List Char
  deriving DecidableEq, Repr

namespace Lexeme

/-- A lexeme whose text is what was taken. -/
def plain (kind : Token.Kind) (source : List Char) : Lexeme := ⟨kind, source, source⟩

end Lexeme

namespace Rule

-- ============================================================== comments

/-- How comments are written. -/
inductive Comments where
  /-- From the first character to the end of the line. -/
  | line
  /-- After two slashes to the end of the line, or between a slash with an
  asterisk and an asterisk with a slash. -/
  | slashed
  deriving DecidableEq, Repr

/-- The characters up to the end of the line. -/
def lineText (cs : List Char) : List Char := cs.takeWhile fun c => c != '\n' && c != '\r'

/-- Inside a block comment: the characters up to and including its end. -/
def blockText : List Char → Option (List Char)
  | [] => none
  | [_] => none
  | c :: d :: r =>
    if c = '*' ∧ d = '/' then some [c, d] else (blockText (d :: r)).map (c :: ·)

/-- Reads a comment; nothing if the characters do not begin one. -/
def Comments.read (rule : Comments) (cs : List Char) : Except Cause (Option Lexeme) :=
  match rule, cs with
  | .line, cs => .ok (some (.plain .comment (lineText cs)))
  | .slashed, '/' :: '/' :: _ => .ok (some (.plain .comment (lineText cs)))
  | .slashed, '/' :: '*' :: r =>
    match blockText r with
    | some block => .ok (some (.plain .comment ('/' :: '*' :: block)))
    | none => .error .unterminatedComment
  | .slashed, _ => .ok none

-- =============================================================== numbers

/-- How numbers are written. -/
inductive Numbers where
  /-- With a minus sign and a fraction, both optional. -/
  | signed
  /-- With a fraction and an exponent, both optional. -/
  | scientific
  deriving DecidableEq, Repr

/-- A point and the digits after it; nothing unless there is one. -/
def fractionText (cs : List Char) : List Char :=
  match cs with
  | '.' :: r => if leadingDigits r = [] then [] else '.' :: leadingDigits r
  | _ => []

/-- An `e`, a sign or none, and the digits after them; nothing unless there
is one. -/
def exponentText (cs : List Char) : List Char :=
  match cs with
  | e :: r =>
    if e = 'e' ∨ e = 'E' then
      match r with
      | s :: ds =>
        if s = '+' ∨ s = '-' then
          if leadingDigits ds = [] then [] else e :: s :: leadingDigits ds
        else if leadingDigits r = [] then [] else e :: leadingDigits r
      | [] => []
    else []
  | [] => []

/-- The minus sign in front, where a number may have one. -/
def Numbers.sign (rule : Numbers) (cs : List Char) : List Char :=
  match rule, cs with
  | .signed, '-' :: _ => ['-']
  | _, _ => []

/-- The exponent in front, where a number may have one. -/
def Numbers.exponent (rule : Numbers) (cs : List Char) : List Char :=
  match rule with
  | .signed => []
  | .scientific => exponentText cs

/-- Reads a number; nothing if the characters do not begin one. -/
def Numbers.read (rule : Numbers) (cs : List Char) : Option Lexeme :=
  let sign := rule.sign cs
  let whole := leadingDigits (cs.drop sign.length)
  let fraction := fractionText (cs.drop (sign.length + whole.length))
  if whole = [] ∧ fraction = [] then none
  else
    let exponent :=
      rule.exponent (cs.drop (sign.length + whole.length + fraction.length))
    let kind := if fraction = [] ∧ exponent = [] then .integer else .float
    some (.plain kind (sign ++ whole ++ fraction ++ exponent))

-- ================================================================ quotes

/-- What quotes mean. -/
inductive Quotes where
  /-- Quoted text stays as it is written. -/
  | verbatim
  /-- Text in double quotes is a word; other quoted text stays as it is
  written. -/
  | naming
  deriving DecidableEq, Repr

/-- Reads a quoted text, which begins with the quote that ends it. -/
def Quotes.read (rule : Quotes) (cs : List Char) : Except Cause Lexeme :=
  match cs with
  | [] => .error .endOfInput
  | q :: r =>
    match Quoted.closing q r with
    | none => .error (.unterminatedString q)
    | some body =>
      match rule with
      | .verbatim => .ok (.plain .quoted (q :: body))
      | .naming =>
        if q = '"' then .ok ⟨.word, q :: body, Quoted.decode '"' (q :: body)⟩
        else .ok (.plain .quoted (q :: body))

-- =============================================== symbols, blanks, words

/-- Reads the longest registered symbol, or one character as a symbol. -/
def readSymbol (symbols : Symbols Token.Kind) (cs : List Char) : Lexeme :=
  match symbols.longest? cs with
  | some (n, kind) => .plain kind (cs.take n)
  | none => .plain .symbol (cs.take 1)

/-- Reads a run of blanks, which may be empty. -/
def readBlanks (blanks : CharClass) (cs : List Char) : Lexeme :=
  .plain .whitespace (cs.takeWhile blanks.contains)

/-- Reads a word: any first character and the word characters behind it. -/
def readWord (letters : CharClass) (cs : List Char) : Lexeme :=
  .plain .word (cs.take 1 ++ (cs.drop 1).takeWhile letters.contains)

/-- The rules that read characters of a class as far as they reach. -/
inductive Runs where
  /-- A run of blanks. -/
  | blanks (members : CharClass)
  /-- A word, whose first character need not be of the class. -/
  | word (members : CharClass)

/-- Reads a run. -/
def Runs.read : Runs → List Char → Lexeme
  | .blanks members, cs => readBlanks members cs
  | .word members, cs => readWord members cs

/-- The rule with another class. -/
def Runs.change (f : CharClass → CharClass) : Runs → Runs
  | .blanks members => .blanks (f members)
  | .word members => .word (f members)

-- ================================================================= prose

/-- The characters before the next two opening braces. -/
def proseText : List Char → List Char
  | [] => []
  | [c] => [c]
  | c :: d :: r => if c = '\x7b' ∧ d = '\x7b' then [] else c :: proseText (d :: r)

end Rule

-- ============================================================= all rules

/-- The rules. -/
inductive Rule where
  | comments (rule : Rule.Comments)
  | numbers (rule : Rule.Numbers)
  | quotes (rule : Rule.Quotes)
  | symbols (known : Symbols Token.Kind)
  | runs (rule : Rule.Runs)
  /-- Text up to the next two opening braces. -/
  | prose

/-- Reads what a rule finds at the front of a text; nothing if it leaves
the characters to the rule for symbols. -/
def Rule.read (rule : Rule) (cs : List Char) : Except Cause (Option Lexeme) :=
  match rule with
  | .comments rule => rule.read cs
  | .numbers rule => .ok (rule.read cs)
  | .quotes rule => (rule.read cs).map some
  | .symbols known => .ok (some (Rule.readSymbol known cs))
  | .runs rule => .ok (some (rule.read cs))
  | .prose => .ok (some (.plain .special (Rule.proseText cs)))

end Formula
