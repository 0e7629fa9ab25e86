/-
JSON texts, compact or indented. Members are written in order of their
names. In texts, the quote, the backslash and the control characters are
escaped and nothing else is.
-/
import Formula.Json.Basic
import Formula.Number.Layout

namespace Formula

namespace Json

-- ================================================================ scalars

/-- Floats keep their fraction, and have an exponent from 10^16 and below
10^-5. -/
def floatLayout : Layout := ⟨some (-5, 15), true, true, .toEven⟩

/-- A character inside a text. -/
def escape (c : Char) : List Char :=
  match c with
  | '"' => ['\\', '"']
  | '\\' => ['\\', '\\']
  | '\x08' => ['\\', 'b']
  | '\x0c' => ['\\', 'f']
  | '\n' => ['\\', 'n']
  | '\r' => ['\\', 'r']
  | '\t' => ['\\', 't']
  | c =>
    if c.toNat < 0x20 then
      ['\\', 'u', '0', '0', Nat.digitChar (c.toNat / 16), Nat.digitChar (c.toNat % 16)]
    else [c]

/-- A text between quotes. -/
def quote (s : String) : String := "\"" ++ String.ofList (s.toList.flatMap escape) ++ "\""

/-- A truth value. -/
def truth (b : Bool) : String := if b then "true" else "false"

-- ================================================================ compact

mutual

/-- A JSON value without any space. -/
def compact : Json → String
  | .null => "null"
  | .boolean b => truth b
  | .integer n => String.ofList (integerText n)
  | .float x => floatLayout.write x
  | .string s => quote s
  | .array items => "[" ++ compactItems items ++ "]"
  | .object fields => "\x7b" ++ compactFields fields ++ "\x7d"

/-- Items separated by commas. -/
def compactItems : List Json → String
  | [] => ""
  | [j] => compact j
  | j :: k :: r => compact j ++ "," ++ compactItems (k :: r)

/-- Members separated by commas. -/
def compactFields : List (String × Json) → String
  | [] => ""
  | [(n, j)] => quote n ++ ":" ++ compact j
  | (n, j) :: m :: r => quote n ++ ":" ++ compact j ++ "," ++ compactFields (m :: r)

end

-- =============================================================== indented

/-- A new line, indented by two spaces for each level. -/
def newLine (level : Nat) : String := "\n" ++ String.ofList (List.replicate (2 * level) ' ')

mutual

/-- A JSON value with every item and member on a line of its own. -/
def indented (level : Nat) : Json → String
  | .array [] => "[]"
  | .array (j :: js) => "[" ++ indentedItems (level + 1) (j :: js) ++ newLine level ++ "]"
  | .object [] => "\x7b\x7d"
  | .object (m :: ms) => "\x7b" ++ indentedFields (level + 1) (m :: ms) ++ newLine level ++ "\x7d"
  | .null => compact .null
  | .boolean b => compact (.boolean b)
  | .integer n => compact (.integer n)
  | .float x => compact (.float x)
  | .string s => compact (.string s)

/-- Items on lines of their own. -/
def indentedItems (level : Nat) : List Json → String
  | [] => ""
  | [j] => newLine level ++ indented level j
  | j :: k :: r => newLine level ++ indented level j ++ "," ++ indentedItems level (k :: r)

/-- Members on lines of their own. -/
def indentedFields (level : Nat) : List (String × Json) → String
  | [] => ""
  | [(n, j)] => newLine level ++ quote n ++ ": " ++ indented level j
  | (n, j) :: m :: r =>
    newLine level ++ quote n ++ ": " ++ indented level j ++ "," ++ indentedFields level (m :: r)

end

/-- A JSON value on several lines. -/
def pretty (j : Json) : String := indented 0 j

end Json

end Formula
