/-
A cursor stands between two characters of a text: what it has passed, the
place of what comes next, and what is left. Moving forward records the
place of every character passed, so moving back restores it without
looking at the text again.

The view of a cursor is its whole text, `passed` in order followed by
`rest`: no movement changes it, and the number of characters passed is
the cursor's position.
-/
import Formula.Text.Place

namespace Formula

/-- A position in a text with lookahead and pushback. `passed` holds the
characters already read with their places, the latest first. -/
structure Cursor where
  passed : List (Char × Place)
  place : Place
  rest : List Char

namespace Cursor

-- ======================================================== construction

/-- The cursor before the first of some characters. -/
def ofChars (text : List Char) : Cursor := ⟨[], Place.origin, text⟩

/-- The cursor before the first character of a text. -/
def start (text : String) : Cursor := ofChars text.toList

/-- The characters of the text, wherever the cursor stands in it. -/
def text (c : Cursor) : List Char := (c.passed.map Prod.fst).reverse ++ c.rest

-- ============================================================ looking

/-- How many characters have been passed. -/
def position (c : Cursor) : Nat := c.passed.length

/-- Whether no character is left. -/
def atEnd (c : Cursor) : Bool := c.rest.isEmpty

/-- The character `n` places after the next one. -/
def peekAt (c : Cursor) (n : Nat) : Option Char := c.rest[n]?

/-- The next character. -/
def peek (c : Cursor) : Option Char := c.rest.head?

/-- The place of the last character passed. -/
def lastPlace (c : Cursor) : Place :=
  match c.passed with
  | [] => Place.nowhere
  | (_, p) :: _ => p

-- ============================================================= moving

/-- One character forward; at the end the cursor stays. -/
def advance (c : Cursor) : Cursor :=
  match c.rest with
  | [] => c
  | a :: r => ⟨(a, c.place) :: c.passed, c.place.next a, r⟩

/-- The next character and the cursor after it. -/
def read (c : Cursor) : Option Char × Cursor := (c.peek, c.advance)

/-- One character back; at the start the cursor stays. -/
def back (c : Cursor) : Cursor :=
  match c.passed with
  | [] => c
  | (a, p) :: r => ⟨r, p, a :: c.rest⟩

/-- `n` characters forward, or to the end. -/
def skip (c : Cursor) : Nat → Cursor
  | 0 => c
  | n + 1 => c.advance.skip n

/-- `n` characters back, or to the start. -/
def rewind (c : Cursor) : Nat → Cursor
  | 0 => c
  | n + 1 => if c.passed.isEmpty then c else c.back.rewind n

/-- Before the first character. -/
def reset (c : Cursor) : Cursor := ofChars c.text

/-- After the last character. -/
def toEnd (c : Cursor) : Cursor := c.skip c.rest.length

-- ============================================================== views

@[simp] theorem text_ofChars (cs : List Char) : (ofChars cs).text = cs := by
  simp [text, ofChars]

@[simp] theorem text_advance (c : Cursor) : c.advance.text = c.text := by
  unfold advance
  split <;> simp_all [text]

@[simp] theorem text_back (c : Cursor) : c.back.text = c.text := by
  unfold back
  split <;> simp_all [text]

@[simp] theorem rest_advance (c : Cursor) : c.advance.rest = c.rest.tail := by
  unfold advance
  split <;> simp_all

/-- Skipping drops that many characters of what is left. -/
@[simp] theorem rest_skip (c : Cursor) (n : Nat) : (c.skip n).rest = c.rest.drop n := by
  induction n generalizing c with
  | zero => simp [skip]
  | succ n ih => simp [skip, ih, List.drop_tail]

@[simp] theorem text_skip (c : Cursor) (n : Nat) : (c.skip n).text = c.text := by
  induction n generalizing c with
  | zero => rfl
  | succ n ih => simp [skip, ih]

@[simp] theorem text_rewind (c : Cursor) (n : Nat) : (c.rewind n).text = c.text := by
  induction n generalizing c with
  | zero => rfl
  | succ n ih => simp only [rewind]; split <;> simp [ih]

@[simp] theorem text_reset (c : Cursor) : c.reset.text = c.text := by simp [reset]

/-- Skipping at least one of the characters left leaves fewer. -/
theorem rest_skip_lt {c : Cursor} {n : Nat} (hn : 0 < n) (hc : c.rest ≠ []) :
    (c.skip n).rest.length < c.rest.length := by
  have := List.length_pos_iff.2 hc
  simp only [rest_skip, List.length_drop]
  omega

end Cursor

end Formula
