/-
Quoted text: a quote character on both sides, and inside it every quote
written twice. Encoding always succeeds; decoding leaves alone what does
not both begin and end with the quote; reading takes the longest quoted
text from the front of the characters left, so a quote followed by a
quote never closes.
-/

namespace Formula.Quoted

/-- The text with every quote written twice. -/
def double (q : Char) : List Char → List Char
  | [] => []
  | c :: r => if c = q then q :: q :: double q r else c :: double q r

/-- The text between quotes. -/
def encode (q : Char) (text : List Char) : List Char := q :: double q text ++ [q]

/-- The text with every pair of quotes, from the left, made one. -/
def collapse (q : Char) : List Char → List Char
  | [] => []
  | [c] => [c]
  | c :: d :: r => if c = q ∧ d = q then q :: collapse q r else c :: collapse q (d :: r)

/-- The text that a quoted text stands for; other texts stand for
themselves. -/
def decode (q : Char) (text : List Char) : List Char :=
  match text with
  | a :: b :: r =>
    if a = q ∧ (b :: r).getLast? = some q then collapse q (b :: r).dropLast else text
  | _ => text

/-- After an opening quote: the characters up to and including the quote
that closes it, or nothing when none does. -/
def closing (q : Char) : List Char → Option (List Char)
  | [] => none
  | [c] => if c = q then some [c] else none
  | c :: d :: r =>
    if c = q then
      if d = q then (closing q r).map (c :: d :: ·) else some [c]
    else (closing q (d :: r)).map (c :: ·)

end Formula.Quoted
