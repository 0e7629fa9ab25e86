/-
The symbols of expressions: tokens with the part they play in the grammar.
Words and marks are looked up in the table of reserved ones, numbers and
quoted texts become constants, and every other word is a name.
-/
import Formula.Lex.Token
import Formula.Text.Capitals
import Formula.Value.Coercion

namespace Formula

namespace Expr

-- ================================================================= parts

/-- The parts that symbols play. -/
inductive Part where
  | leftParen
  | rightParen
  | leftBracket
  | rightBracket
  | comma
  | plus
  | minus
  | star
  | slash
  | percent
  | power
  | equal
  | notEqual
  | more
  | less
  | moreEqual
  | lessEqual
  | shiftLeft
  | shiftRight
  | and
  | or
  | xor
  | not
  | is
  | isIn
  | null
  | like
  /-- A literal value. -/
  | constant
  /-- The name of a variable or function. -/
  | variable
  deriving DecidableEq, Repr

/-- A symbol. Constants carry their value, all other symbols the text they
were written with. -/
structure Symbol where
  part : Part
  value : Value
  place : Place

-- ======================================================== reserved words

/-- The marks and words with a part of their own. -/
def reserved : List (String × Part) := [
  ("(", .leftParen),
  (")", .rightParen),
  ("[", .leftBracket),
  ("]", .rightBracket),
  (",", .comma),
  ("+", .plus),
  ("-", .minus),
  ("*", .star),
  ("/", .slash),
  ("%", .percent),
  ("^", .power),
  ("=", .equal),
  ("<>", .notEqual),
  ("!=", .notEqual),
  (">", .more),
  ("<", .less),
  (">=", .moreEqual),
  ("<=", .lessEqual),
  ("<<", .shiftLeft),
  (">>", .shiftRight),
  ("AND", .and),
  ("OR", .or),
  ("XOR", .xor),
  ("NOT", .not),
  ("IS", .is),
  ("IN", .isIn),
  ("NULL", .null),
  ("LIKE", .like)]

/-- The part of a reserved mark or word, in any case. -/
def reserved? (text : String) : Option Part :=
  (reserved.find? fun r => r.1 == capitals text).map Prod.snd

-- ======================================================= classification

/-- The truth value a word names. -/
def truth? (text : String) : Option Bool :=
  if capitals text = "TRUE" then some true
  else if capitals text = "FALSE" then some false
  else none

/-- The part and value of a word. -/
def ofWord (text : String) : Part × Value :=
  match truth? text with
  | some b => (.constant, .boolean b)
  | none => ((reserved? text).getD .variable, .string text)

/-- The value of a number: an integer where it is whole and fits, and a
float otherwise. -/
def numberValue? (kind : Token.Kind) (text : String) : Option Value :=
  let integer := if kind = .float then none else integer? text.toList
  match integer with
  | some n => some (.integer n)
  | none => (float? text.toList).map .float

/-- The part and value of a token; nothing for tokens without meaning. -/
def classify (t : Token) : Except Cause (Option (Part × Value)) :=
  match t.kind with
  | .whitespace | .comment | .eof | .eol => .ok none
  | .word | .keyword => .ok (some (ofWord t.text))
  | .integer | .float | .number =>
    match numberValue? t.kind t.text with
    | some v => .ok (some (.constant, v))
    | none => .error (.invalidNumber t.text)
  | .quoted => .ok (some (.constant, .string t.text))
  | .symbol =>
    match reserved? t.text with
    | some part => .ok (some (part, .string t.text))
    | none => .error (.unknownSymbol t.text)
  | .hexDecimal | .special | .unknown => .error (.unknownSymbol t.text)

/-- The symbols of a list of tokens; the first token that is none fails. -/
def symbols : List Token → Except Fault (List Symbol)
  | [] => .ok []
  | t :: ts =>
    match classify t with
    | .error cause => .error (.atPlace cause t.place)
    | .ok none => symbols ts
    | .ok (some (part, value)) => (symbols ts).map (⟨part, value, t.place⟩ :: ·)

end Expr

end Formula
