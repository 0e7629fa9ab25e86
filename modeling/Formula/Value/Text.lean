/-
The text of a value, as concatenation and patterns see it: numbers in full,
null as nothing, the items of an array separated by commas. An object is
written as its literal form, which names the kind of everything in it.
-/
import Formula.Number.Layout
import Formula.Text.Shape
import Formula.Value.Basic

namespace Formula.Value

-- =============================================================== floats

/-- Floats in texts are written out in full, however large or small. -/
def textLayout : Layout := ⟨none, false, false, .up⟩

/-- Floats in literals keep their fraction and have an exponent from 10^16
and below 10^-4. -/
def literalLayout : Layout := ⟨some (-4, 15), true, false, .up⟩

-- ============================================================== quoting

/-- A character inside a literal text; one without a shape is written by
its number. -/
def literalChar (c : Char) : List Char :=
  match c with
  | '"' => ['\\', '"']
  | '\\' => ['\\', '\\']
  | '\n' => ['\\', 'n']
  | '\r' => ['\\', 'r']
  | '\t' => ['\\', 't']
  | '\x00' => ['\\', '0']
  | c => if isShapeless c then '\\' :: 'u' :: '\x7b' :: Nat.toDigits 16 c.toNat ++ ['\x7d'] else [c]

/-- A text between quotes. -/
def literalString (s : String) : String :=
  "\"" ++ String.ofList (s.toList.flatMap literalChar) ++ "\""

-- ============================================================= literals

mutual

/-- The literal form of a value. -/
def literal : Value → String
  | null => "Null"
  | boolean b => "Boolean(" ++ (if b then "true" else "false") ++ ")"
  | integer n => "Integer(" ++ String.ofList (integerText n.toInt) ++ ")"
  | float x => "Float(" ++ literalLayout.write x ++ ")"
  | string s => "String(" ++ literalString s ++ ")"
  | array items => "Array([" ++ literalItems items ++ "])"
  | object fields => "Object(\x7b" ++ literalFields fields ++ "\x7d)"

/-- Literals separated by commas. -/
def literalItems : List Value → String
  | [] => ""
  | [a] => literal a
  | a :: b :: r => literal a ++ ", " ++ literalItems (b :: r)

/-- Members separated by commas. Nothing fixes the order in which the members of an
object are written; here it is that of their names. -/
def literalFields : List (String × Value) → String
  | [] => ""
  | [(n, a)] => literalString n ++ ": " ++ literal a
  | (n, a) :: b :: r => literalString n ++ ": " ++ literal a ++ ", " ++ literalFields (b :: r)

end

-- ================================================================= text

mutual

/-- The text of a value. -/
def text : Value → String
  | null => ""
  | boolean b => if b then "true" else "false"
  | integer n => String.ofList (integerText n.toInt)
  | float x => textLayout.write x
  | string s => s
  | array items => textItems items
  | object fields => literal (object fields)

/-- Texts separated by commas. -/
def textItems : List Value → String
  | [] => ""
  | [a] => text a
  | a :: b :: r => text a ++ "," ++ textItems (b :: r)

end

@[simp] theorem text_string (s : String) : text (string s) = s := by simp [text]

end Formula.Value
