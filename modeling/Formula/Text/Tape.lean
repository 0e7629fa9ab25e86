/-
A tape is a text spread out for reading in both directions: all of its
characters, the place of each of them in a table, and the position of the
next one. The table is written when the tape is made and has one entry more
than there are characters, for the end of the text. Moving only changes the
position, so whether an entry exists is seen when it is looked up. Positions
and offsets are natural numbers, and the sum of them never wraps round.

A cursor (`Cursor`) stands for the same without a table: it keeps what it has
passed.
-/
import Formula.Text.Cursor

namespace Formula

/-- A text with the places of its characters, and the position of the next. -/
structure Tape where
  chars : Array Char
  places : Array Place
  position : Nat

namespace Tape

-- ======================================================== construction

/-- Notes the place reached, and moves over a character. -/
def enter (entries : Array Place × Place) (c : Char) : Array Place × Place :=
  (entries.1.push entries.2, entries.2.next c)

/-- The place of every character of a text, and of its end. -/
def tabulate (text : List Char) : Array Place :=
  let entries := text.foldl enter (#[], Place.origin)
  entries.1.push entries.2

/-- The tape of a text, before its first character. -/
def start (text : String) : Tape := ⟨text.toList.toArray, tabulate text.toList, 0⟩

-- ============================================================ looking

/-- Whether no character is left. -/
def atEnd (t : Tape) : Bool := t.chars.size ≤ t.position

/-- The character `n` places after the next one. -/
def peekAt (t : Tape) (n : Nat) : Option Char := t.chars[t.position + n]?

/-- The next character. -/
def peek (t : Tape) : Option Char := t.peekAt 0

/-- The place of the next character, or of the end, where the table has an
entry for it. -/
def place? (t : Tape) : Option Place := t.places[t.position]?

/-- The place of the character before the next one. -/
def lastPlace? (t : Tape) : Option Place :=
  match t.position with
  | 0 => some Place.nowhere
  | n + 1 => t.places[n]?

-- ============================================================= moving

/-- The next character and the tape after it; at the end the tape stays. -/
def read (t : Tape) : Option Char × Tape :=
  match t.chars[t.position]? with
  | some c => (some c, { t with position := t.position + 1 })
  | none => (none, t)

/-- `n` characters back, or to the start. -/
def rewind (t : Tape) (n : Nat) : Tape := { t with position := t.position - n }

/-- One character back. -/
def back (t : Tape) : Tape := t.rewind 1

/-- Before the first character. -/
def reset (t : Tape) : Tape := { t with position := 0 }

/-- The cursor that stands in the same text at the same position. -/
def cursor (t : Tape) : Cursor := (Cursor.ofChars t.chars.toList).skip t.position

end Tape

end Formula
