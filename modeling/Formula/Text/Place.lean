/-
Places in a source text: a line and a column, both counted from one. A
place is advanced one character at a time; only a line feed starts a new
line, and a carriage return counts as a column like any other character.
-/

namespace Formula

/-- Where a character stands in a source text. -/
structure Place where
  line : Nat
  column : Nat
  deriving DecidableEq, Repr, Inhabited

namespace Place

/-- The place of the first character of every text. -/
def origin : Place := ⟨1, 1⟩

/-- The place reported for "the last character read" before any was. -/
def nowhere : Place := ⟨0, 0⟩

/-- The place that follows a character standing at `p`. -/
def next (p : Place) (c : Char) : Place :=
  if c = '\n' then ⟨p.line + 1, 1⟩ else ⟨p.line, p.column + 1⟩

/-- A line feed opens the next line at its first column. -/
@[simp] theorem next_lineFeed (p : Place) : p.next '\n' = ⟨p.line + 1, 1⟩ := rfl

/-- Every other character moves one column to the right. -/
theorem next_of_ne {c : Char} (p : Place) (h : c ≠ '\n') :
    p.next c = ⟨p.line, p.column + 1⟩ := by
  simp [next, h]

end Place

end Formula
