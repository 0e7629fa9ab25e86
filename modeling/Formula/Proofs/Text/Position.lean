/-
Where a cursor stands, said of the characters it has passed. The place of
the next character is counted from them (`Place.after`): line feeds give the
line, and what follows the last line feed gives the column.

A cursor that got where it is by moving forward is determined by what it
has passed and what is left (`Cursor.behind`). Skipping moves characters
from one to the other.
-/
import Mathlib.Data.List.Induction
import Formula.Text.Cursor

namespace Formula

-- ================================================================= places

namespace Place

/-- The place of the character behind `front`: one more than the line feeds
before it, and one more than the characters since the last of them. -/
def after (front : List Char) : Place :=
  ⟨front.count '\n' + 1, (front.reverse.takeWhile (· ≠ '\n')).length + 1⟩

/-- Counting agrees with moving over one character. -/
theorem after_snoc (front : List Char) (c : Char) :
    after (front ++ [c]) = (after front).next c := by
  by_cases h : c = '\n'
  · subst h
    simp [after]
  · rw [next_of_ne _ h]
    simp [after, h]

end Place

-- ================================================================ cursors

namespace Cursor

variable {front cs rest : List Char} {c : Char}

/-- The cursor that has passed `front` and has `rest` left. -/
def behind (front rest : List Char) : Cursor :=
  (ofChars (front ++ rest)).skip front.length

theorem skip_skip (cur : Cursor) (m n : Nat) : (cur.skip m).skip n = cur.skip (m + n) := by
  induction m generalizing cur with
  | zero => simp [skip]
  | succ m ih =>
      rw [Nat.add_right_comm]
      exact ih cur.advance

/-- Moving forward and back again leads to where it began. -/
theorem back_advance {cur : Cursor} (h : cur.rest ≠ []) : cur.advance.back = cur := by
  obtain ⟨passed, place, rest⟩ := cur
  cases rest with
  | nil => exact absurd rfl h
  | cons c rest => rfl

/-- Rewinding takes back what was skipped last. -/
theorem rewind_skip (cur : Cursor) {k : Nat} (hk : k ≤ cur.rest.length) {j : Nat} (hj : j ≤ k) :
    (cur.skip k).rewind j = cur.skip (k - j) := by
  induction j generalizing k with
  | zero => rfl
  | succ j ih =>
      obtain ⟨k, rfl⟩ : ∃ i, k = i + 1 := ⟨k - 1, by omega⟩
      have hlast : cur.skip (k + 1) = (cur.skip k).advance := (skip_skip cur k 1).symm
      have hrest : (cur.skip k).rest ≠ [] := by
        rw [rest_skip]
        exact List.ne_nil_of_length_pos (by rw [List.length_drop]; omega)
      have hpassed : (cur.skip k).advance.passed.isEmpty = false := by
        unfold advance
        cases hcase : (cur.skip k).rest with
        | nil => exact absurd hcase hrest
        | cons c rest => rfl
      rw [rewind, hlast, hpassed, if_neg Bool.false_ne_true, back_advance hrest,
        ih (Nat.le_of_succ_le hk) (Nat.le_of_succ_le_succ hj), Nat.succ_sub_succ]

theorem rewind_ofChars (cs : List Char) (n : Nat) : (ofChars cs).rewind n = ofChars cs := by
  cases n <;> rfl

theorem rewind_rewind (c : Cursor) (m n : Nat) : (c.rewind m).rewind n = c.rewind (m + n) := by
  induction m generalizing c with
  | zero => rw [rewind, Nat.zero_add]
  | succ m ih =>
      rw [Nat.add_right_comm, rewind, rewind]
      split
      · next hstart => cases n <;> simp [rewind, hstart]
      · exact ih c.back

/-- Rewinding stops at the start of the text. -/
theorem rewind_skip_ofChars {i : Nat} (hi : i ≤ cs.length) (n : Nat) :
    ((ofChars cs).skip i).rewind n = (ofChars cs).skip (i - n) := by
  rcases Nat.le_total n i with hn | hn
  · exact rewind_skip (ofChars cs) hi hn
  · have hstart := rewind_skip (ofChars cs) hi (Nat.le_refl i)
    rw [Nat.sub_self] at hstart
    obtain ⟨d, rfl⟩ := Nat.exists_eq_add_of_le hn
    rw [← rewind_rewind, hstart, Nat.sub_add_eq, Nat.sub_self, Nat.zero_sub]
    exact rewind_ofChars cs d

theorem back_eq_rewind (c : Cursor) : c.back = c.rewind 1 := by
  unfold rewind back
  cases c.passed <;> rfl

/-- A cursor that has read remembers where it stood. -/
theorem lastPlace_advance {c : Cursor} (h : c.rest ≠ []) : c.advance.lastPlace = c.place := by
  obtain ⟨passed, place, rest⟩ := c
  cases rest with
  | nil => exact absurd rfl h
  | cons a rest => rfl

/-- A text is read from a cursor that has passed nothing. -/
theorem start_eq_behind (text : String) : start text = behind [] text.toList := rfl

@[simp] theorem rest_behind (front rest : List Char) : (behind front rest).rest = rest := by
  unfold behind
  rw [rest_skip]
  show (front ++ rest).drop front.length = rest
  exact List.drop_left

theorem skip_behind (front cs rest : List Char) :
    (behind front (cs ++ rest)).skip cs.length = behind (front ++ cs) rest := by
  unfold behind
  rw [skip_skip, List.length_append, List.append_assoc]

theorem advance_behind (front : List Char) (c : Char) (rest : List Char) :
    (behind front (c :: rest)).advance = behind (front ++ [c]) rest :=
  skip_behind front [c] rest

/-- A cursor knows the place of what comes next. -/
@[simp] theorem place_behind (front rest : List Char) :
    (behind front rest).place = Place.after front := by
  induction front using List.reverseRecOn generalizing rest with
  | nil => rfl
  | append_singleton front c ih =>
      rw [← advance_behind, Place.after_snoc, ← ih (c :: rest)]
      unfold advance
      rw [rest_behind]

/-- Skipping passes as many characters as it says, or all that are left. -/
theorem position_skip (cur : Cursor) (n : Nat) :
    (cur.skip n).position = cur.position + min n cur.rest.length := by
  induction n generalizing cur with
  | zero => simp [skip]
  | succ n ih =>
      rw [skip, ih]
      unfold advance
      cases h : cur.rest with
      | nil => simp [h]
      | cons c r =>
          simp only [position, List.length_cons]
          omega

end Cursor

end Formula
