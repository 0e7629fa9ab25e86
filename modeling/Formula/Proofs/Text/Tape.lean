/-
Where a tape stands, whatever moves brought it there. The table of a tape is
read off the characters: the entry at a position is the place that the
characters before it lead to (`getElem?_tabulate`). A move changes nothing
but the position, and keeps it within the text (`on_standing`), so every look
into the table finds an entry.

Main statement: after any moves, a tape answers each further move as its text
says (`Goes`), and knows the place of the next character and of the one
before it, counted from the characters passed (`run_start`).

The lexers read through a cursor, which has no table. After the same moves a
cursor and a tape cannot be told apart (`cursor_run`): a cursor follows a tape
move by move (`onCursor_standing`), and knows the same places.
-/
import Formula.Proofs.Text.Position
import Formula.Text.Tape

namespace Formula

/-- The places that characters lead to, one after the other. -/
theorem Place.foldl_next (front : List Char) :
    front.foldl Place.next Place.origin = Place.after front := by
  induction front using List.reverseRecOn with
  | nil => rfl
  | append_singleton front c ih =>
      rw [List.foldl_append, ih, Place.after_snoc]
      rfl

namespace Tape

variable {cs : List Char} {i : Nat}

-- ============================================================== the table

theorem foldl_enter (cs : List Char) (table : Array Place) (p : Place) :
    (let entries := cs.foldl enter (table, p)
    (entries.1.push entries.2).toList) = table.toList ++ cs.scanl Place.next p := by
  induction cs generalizing table p with
  | nil => simp
  | cons c cs ih =>
      rw [List.foldl_cons, enter, ih, List.scanl_cons, Array.toList_push, List.append_assoc]
      rfl

theorem toList_tabulate (cs : List Char) :
    (tabulate cs).toList = cs.scanl Place.next Place.origin :=
  foldl_enter cs #[] Place.origin

/-- One entry more than there are characters. -/
theorem size_tabulate (cs : List Char) : (tabulate cs).size = cs.length + 1 := by
  rw [← Array.length_toList, toList_tabulate, List.length_scanl]

/-- An entry says where the characters before it lead. -/
theorem getElem?_tabulate (h : i ≤ cs.length) :
    (tabulate cs)[i]? = some (Place.after (cs.take i)) := by
  rw [← Array.getElem?_toList, toList_tabulate, List.getElem?_scanl, if_pos h,
    Place.foldl_next]

end Tape

-- ================================================================== moves

/-- What can be asked of a tape. -/
inductive Move where
  | read
  | peek
  | peekAt (n : Nat)
  | back
  | rewind (n : Nat)
  | reset

/-- What a move answers, and the tape after it. -/
def Move.on (m : Move) (t : Tape) : Option Char × Tape :=
  match m with
  | .read => t.read
  | .peek => (t.peek, t)
  | .peekAt n => (t.peekAt n, t)
  | .back => (none, t.back)
  | .rewind n => (none, t.rewind n)
  | .reset => (none, t.reset)

/-- A tape after some moves. -/
def Tape.run (t : Tape) (ms : List Move) : Tape := ms.foldl (fun t m => (m.on t).2) t

/-- What a move means in a text: from the position `i` of the text, the move
`m` answers `a` and leads to the position `j`. -/
inductive Goes (text : List Char) : Nat → Move → Option Char → Nat → Prop where
  | read {i : Nat} {c : Char} : text[i]? = some c → Goes text i .read (some c) (i + 1)
  | stop : Goes text text.length .read none text.length
  | peek {i : Nat} : Goes text i .peek text[i]? i
  | peekAt {i n : Nat} : Goes text i (.peekAt n) text[i + n]? i
  | back {i : Nat} : Goes text i .back none (i - 1)
  | rewind {i n : Nat} : Goes text i (.rewind n) none (i - min n i)
  | reset {i : Nat} : Goes text i .reset none 0

/-- No move leads out of a text. -/
theorem Goes.within {text : List Char} {i j : Nat} {m : Move} {a : Option Char}
    (h : Goes text i m a j) (hi : i ≤ text.length) : j ≤ text.length := by
  cases h with
  | read hc => exact (List.getElem?_eq_some_iff.1 hc).1
  | stop | peek | peekAt => exact hi
  | back | rewind => exact Nat.le_trans (Nat.sub_le ..) hi
  | reset => exact Nat.zero_le _

namespace Tape

variable {cs : List Char} {i : Nat}

/-- The tape of a text at a position. -/
def standing (cs : List Char) (i : Nat) : Tape := ⟨cs.toArray, tabulate cs, i⟩

/-- A move changes the position of a tape, to where it leads in the text, and
nothing else. -/
theorem on_standing (hi : i ≤ cs.length) (m : Move) :
    ∃ a j, Goes cs i m a j ∧ m.on (standing cs i) = (a, standing cs j) := by
  have hchars (k : Nat) : (standing cs i).chars[k]? = cs[k]? := List.getElem?_toArray
  cases m with
  | read =>
      simp only [Move.on, read, standing]
      rw [List.getElem?_toArray]
      cases hc : cs[i]? with
      | some c => exact ⟨some c, i + 1, .read hc, rfl⟩
      | none =>
          obtain rfl : i = cs.length := Nat.le_antisymm hi (List.getElem?_eq_none_iff.1 hc)
          exact ⟨none, cs.length, .stop, rfl⟩
  | peek => exact ⟨_, i, .peek, congrArg (·, standing cs i) (hchars i)⟩
  | peekAt n => exact ⟨_, i, .peekAt, congrArg (·, standing cs i) (hchars (i + n))⟩
  | back => exact ⟨none, i - 1, .back, rfl⟩
  | rewind n =>
      have hback : i - n = i - min n i := by omega
      refine ⟨none, _, .rewind, ?_⟩
      rw [← hback]
      rfl
  | reset => exact ⟨none, 0, .reset, rfl⟩

/-- Moves keep a tape in its text. -/
theorem run_standing (hi : i ≤ cs.length) (ms : List Move) :
    ∃ j ≤ cs.length, (standing cs i).run ms = standing cs j := by
  induction ms generalizing i with
  | nil => exact ⟨i, hi, rfl⟩
  | cons m ms ih =>
      obtain ⟨a, j, hgoes, hon⟩ := on_standing hi m
      obtain ⟨k, hk, hrun⟩ := ih (hgoes.within hi)
      refine ⟨k, hk, ?_⟩
      rw [← hrun, run, List.foldl_cons, hon]
      rfl

-- ================================================================= places

theorem place?_standing (hi : i ≤ cs.length) :
    (standing cs i).place? = some (Place.after (cs.take i)) := getElem?_tabulate hi

theorem lastPlace?_standing (hi : i ≤ cs.length) :
    (standing cs i).lastPlace?
      = some (if i = 0 then Place.nowhere else Place.after (cs.take (i - 1))) := by
  cases i with
  | zero => rfl
  | succ i => exact getElem?_tabulate (Nat.le_of_succ_le hi)

-- ============================================================ main result

/-- After any moves a tape stands within its text. Each move answers what the
text says and changes nothing but the position. The table has an entry for the
position, the place of the next character, which counts the line feeds passed
and the characters passed since the last of them, and one for the character
before it. -/
theorem run_start (text : String) (ms : List Move) :
    let t := (start text).run ms
    t.position ≤ text.toList.length
      ∧ (∀ m : Move, ∃ a j, Goes text.toList t.position m a j
        ∧ m.on t = (a, { t with position := j }))
      ∧ t.position < t.places.size
      ∧ t.place? = some (Place.after (text.toList.take t.position))
      ∧ t.lastPlace? = some (if t.position = 0 then Place.nowhere
        else Place.after (text.toList.take (t.position - 1))) := by
  obtain ⟨i, hi, hrun⟩ := run_standing (Nat.zero_le text.toList.length) ms
  have hstart : start text = standing text.toList 0 := rfl
  have hsize : i < (tabulate text.toList).size := by
    rw [size_tabulate]
    exact Nat.lt_succ_of_le hi
  rw [hstart, hrun]
  exact ⟨hi, fun m => on_standing hi m, hsize, place?_standing hi, lastPlace?_standing hi⟩

/-- A line feed counts as the last character of its line. -/
example :
    let t := (start "a\nbc").run [.read, .read]
    t.lastPlace? = some ⟨1, 2⟩ ∧ t.place? = some ⟨2, 1⟩ := by decide

end Tape

-- ================================================================ cursors

/-- What a move answers, and the cursor after it. -/
def Move.onCursor (m : Move) (c : Cursor) : Option Char × Cursor :=
  match m with
  | .read => c.read
  | .peek => (c.peek, c)
  | .peekAt n => (c.peekAt n, c)
  | .back => (none, c.back)
  | .rewind n => (none, c.rewind n)
  | .reset => (none, c.reset)

namespace Cursor

/-- A cursor after some moves. -/
def run (c : Cursor) (ms : List Move) : Cursor := ms.foldl (fun c m => (m.onCursor c).2) c

/-- No move changes the text of a cursor. -/
theorem text_onCursor (c : Cursor) (m : Move) : (m.onCursor c).2.text = c.text := by
  cases m with
  | read => exact text_advance c
  | peek => rfl
  | peekAt n => rfl
  | back => exact text_back c
  | rewind n => exact text_rewind c n
  | reset => exact text_reset c

theorem text_run (c : Cursor) (ms : List Move) : (c.run ms).text = c.text := by
  induction ms generalizing c with
  | nil => rfl
  | cons m ms ih =>
      rw [run, List.foldl_cons, ← text_onCursor c m]
      exact ih _

end Cursor

namespace Tape

variable {cs : List Char} {i : Nat}

theorem cursor_standing (cs : List Char) (i : Nat) :
    (standing cs i).cursor = (Cursor.ofChars cs).skip i := rfl

/-- A cursor answers a move as the tape does, and follows it. -/
theorem onCursor_standing (hi : i ≤ cs.length) (m : Move) :
    m.onCursor (standing cs i).cursor
      = ((m.on (standing cs i)).1, (m.on (standing cs i)).2.cursor) := by
  have hrest : ((Cursor.ofChars cs).skip i).rest = cs.drop i := Cursor.rest_skip _ i
  have hpeek : ((Cursor.ofChars cs).skip i).peek = cs[i]? := by
    rw [Cursor.peek, hrest, List.head?_drop]
  have hrewind := Cursor.rewind_skip_ofChars hi
  rw [cursor_standing]
  cases m with
  | read =>
      simp only [Move.onCursor, Move.on, Cursor.read, read, standing]
      rw [hpeek, List.getElem?_toArray]
      cases hc : cs[i]? with
      | some c => exact congrArg (Prod.mk _) (Cursor.skip_skip (Cursor.ofChars cs) i 1)
      | none =>
          have hend : ((Cursor.ofChars cs).skip i).rest = [] := by
            rw [hrest, List.drop_eq_nil_iff]
            exact List.getElem?_eq_none_iff.1 hc
          refine congrArg (Prod.mk none) ?_
          unfold Cursor.advance
          rw [hend]
          rfl
  | peek => exact congrArg (·, _) (hpeek.trans List.getElem?_toArray.symm)
  | peekAt n =>
      refine congrArg (·, _) ?_
      rw [Cursor.peekAt, hrest, List.getElem?_drop]
      exact List.getElem?_toArray.symm
  | back => exact congrArg (Prod.mk none) ((Cursor.back_eq_rewind _).trans (hrewind 1))
  | rewind n => exact congrArg (Prod.mk none) (hrewind n)
  | reset =>
      refine congrArg (Prod.mk none) ?_
      rw [Cursor.reset, Cursor.text_skip, Cursor.text_ofChars]
      rfl

/-- The same moves take a cursor and a tape to the same position. -/
theorem cursor_run_standing (hi : i ≤ cs.length) (ms : List Move) :
    ((standing cs i).run ms).cursor = (standing cs i).cursor.run ms := by
  induction ms generalizing i with
  | nil => rfl
  | cons m ms ih =>
      obtain ⟨a, j, hgoes, hon⟩ := on_standing hi m
      have hcursor := congrArg Prod.snd (onCursor_standing hi m)
      rw [run, Cursor.run, List.foldl_cons, List.foldl_cons, hcursor, hon]
      exact ih (hgoes.within hi)

theorem position_cursor_standing (hi : i ≤ cs.length) : (standing cs i).cursor.position = i := by
  rw [cursor_standing, Cursor.position_skip]
  show 0 + min i cs.length = i
  omega

theorem atEnd_cursor_standing (cs : List Char) (i : Nat) :
    (standing cs i).cursor.atEnd = (standing cs i).atEnd := by
  rw [cursor_standing, Cursor.atEnd, Cursor.rest_skip, atEnd, standing, List.size_toArray,
    Bool.eq_iff_iff, List.isEmpty_iff, decide_eq_true_iff]
  exact List.drop_eq_nil_iff

theorem place_cursor_standing (hi : i ≤ cs.length) :
    (standing cs i).cursor.place = Place.after (cs.take i) := by
  have hbehind := Cursor.place_behind (cs.take i) (cs.drop i)
  rw [Cursor.behind, List.take_append_drop, List.length_take_of_le hi] at hbehind
  exact hbehind

theorem lastPlace_cursor_standing (hi : i ≤ cs.length) :
    (standing cs i).cursor.lastPlace
      = if i = 0 then Place.nowhere else Place.after (cs.take (i - 1)) := by
  cases i with
  | zero => rfl
  | succ i =>
      have hrest : (standing cs i).cursor.rest ≠ [] := by
        rw [cursor_standing, Cursor.rest_skip]
        exact List.ne_nil_of_length_pos (by rw [List.length_drop]; exact Nat.sub_pos_of_lt hi)
      have hadvance : (standing cs i).cursor.advance = (standing cs (i + 1)).cursor :=
        Cursor.skip_skip (Cursor.ofChars cs) i 1
      rw [if_neg (Nat.succ_ne_zero i), ← hadvance, Cursor.lastPlace_advance hrest]
      exact place_cursor_standing (Nat.le_of_succ_le hi)

/-- After the same moves a cursor, which still has the whole text, and a tape
answer every move alike and know the same places. -/
theorem cursor_run (text : String) (ms : List Move) :
    let t := (start text).run ms
    let c := (Cursor.start text).run ms
    c.text = text.toList
      ∧ (∀ m : Move, (m.onCursor c).1 = (m.on t).1)
      ∧ c.position = t.position ∧ c.atEnd = t.atEnd
      ∧ t.place? = some c.place ∧ t.lastPlace? = some c.lastPlace := by
  have hfirst := Nat.zero_le text.toList.length
  have hcursor : ((start text).run ms).cursor = (Cursor.start text).run ms :=
    cursor_run_standing hfirst ms
  obtain ⟨i, hi, hrun⟩ := run_standing hfirst ms
  have htape : (start text).run ms = standing text.toList i := hrun
  have htext : ((Cursor.start text).run ms).text = text.toList := by
    rw [Cursor.text_run, Cursor.start, Cursor.text_ofChars]
  rw [← hcursor, htape] at htext ⊢
  refine ⟨htext, fun m => congrArg Prod.fst (onCursor_standing hi m), position_cursor_standing hi,
    atEnd_cursor_standing text.toList i, ?_, ?_⟩
  · rw [place?_standing hi, place_cursor_standing hi]
  · rw [lastPlace?_standing hi, lastPlace_cursor_standing hi]

end Tape

end Formula
