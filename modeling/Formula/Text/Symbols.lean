/-
Registered symbols as a letter tree. A branch is a character, what the
symbol that ends there stands for (if one does), the symbols that go on
from there, and the branches beside it. Matching follows the input down
and remembers the last registered symbol it passed, which makes it the
longest. It is said twice: of characters, and of a cursor, which has to be
put back where the tree goes on further than the symbol.
-/
import Formula.Text.Cursor

namespace Formula

/-- A letter tree of symbols, each standing for an `α`. -/
inductive Symbols (α : Type) where
  | leaf
  /-- The symbols that begin with `c`: `here` is what `c` alone stands
  for, `longer` the continuations, `beside` the symbols that begin
  otherwise. -/
  | branch (c : Char) (here : Option α) (longer beside : Symbols α)
  deriving Repr

namespace Symbols

variable {α : Type}

/-- The tree of one symbol. -/
def single (value : α) : Char → List Char → Symbols α
  | c, [] => .branch c (some value) .leaf .leaf
  | c, d :: r => .branch c none (single value d r) .leaf

/-- Registers a non-empty symbol over the earlier registration of the
same one. -/
def insertCons (value : α) : Char → List Char → Symbols α → Symbols α
  | c, cs, .leaf => single value c cs
  | c, cs, .branch b here longer beside =>
    if c = b then
      match cs with
      | [] => .branch b (some value) longer beside
      | d :: r => .branch b here (insertCons value d r longer) beside
    else .branch b here longer (insertCons value c cs beside)

/-- Registers a symbol. The empty symbol can never be met in a text and
is dropped. -/
def insert (t : Symbols α) (symbol : List Char) (value : α) : Symbols α :=
  match symbol with
  | [] => t
  | c :: cs => insertCons value c cs t

/-- The longest registered symbol at the front of some characters: its
length and what it stands for. -/
def longest? : Symbols α → List Char → Option (Nat × α)
  | .leaf, _ => none
  | .branch _ _ _ _, [] => none
  | .branch b here longer beside, c :: r =>
    if c = b then
      match longest? longer r with
      | some (n, v) => some (n + 1, v)
      | none => here.map fun v => (1, v)
    else longest? beside (c :: r)

/-- How far characters were followed down a tree: the characters, the longest
symbol met with its length and what it stands for, and the cursor behind
them. -/
structure Followed (α : Type) where
  read : List Char
  best : Option (Nat × α)
  cursor : Cursor

/-- Reads on for as long as the characters at a cursor are in the tree. -/
def follow : Symbols α → Followed α → Followed α
  | .leaf, f => f
  | .branch b here longer beside, f =>
    match f.cursor.peek with
    | none => f
    | some c =>
      if c = b then
        let read := f.read ++ [c]
        follow longer ⟨read, (here.map fun v => (read.length, v)).or f.best, f.cursor.advance⟩
      else follow beside f

/-- Reads the longest registered symbol at a cursor: its characters, what it
stands for, and the cursor behind it. What was read further than that is put
back, which is all of it where there is no symbol. -/
def longestMatch (t : Symbols α) (cur : Cursor) : Option (List Char × α) × Cursor :=
  let f := t.follow ⟨[], none, cur⟩
  match f.best with
  | some (n, v) => (some (f.read.take n, v), f.cursor.rewind (f.read.length - n))
  | none => (none, f.cursor.rewind f.read.length)

/-- The tree of the given symbols, later registrations over earlier
ones. -/
def ofList (symbols : List (String × α)) : Symbols α :=
  symbols.foldl (fun t s => t.insert s.1.toList s.2) .leaf

/-- A match is never empty. -/
theorem longest?_pos {t : Symbols α} {cs : List Char} {n : Nat} {v : α}
    (h : t.longest? cs = some (n, v)) : 0 < n := by
  fun_induction longest? t cs generalizing n v with
  | case1 => cases h
  | case2 => cases h
  | case3 => cases h; omega
  | case4 =>
    obtain ⟨_, _, hv⟩ := Option.map_eq_some_iff.1 h
    cases hv; omega
  | case5 _ _ _ _ _ _ _ ih => exact ih h

end Symbols

end Formula
