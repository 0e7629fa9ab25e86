/-
A map from characters to values, given by intervals. The intervals are
kept in order and apart from each other, so that a character is looked up by
halving them. A new interval cuts the ones it overlaps, and all are put in
order again; so the latest assignment to a character is the one that counts.

Bounds are code points rather than characters: a cut may fall on a number
that is no character's, next to the gap in the middle of the code space.
-/

namespace Formula

-- ================================================================ halving

section

variable {α : Type}

/-- Between two positions of a list, the first one whose item fails a test,
found by halving. This asks that the items that pass come first. -/
def partitionBetween (p : α → Bool) (xs : List α) (lo hi : Nat) : Nat :=
  if lo < hi then
    let mid := (lo + hi) / 2
    if xs[mid]?.any p then partitionBetween p xs (mid + 1) hi else partitionBetween p xs lo mid
  else lo
termination_by hi - lo

/-- The number of items that pass a test, where these come first. -/
def partitionPoint (p : α → Bool) (xs : List α) : Nat := partitionBetween p xs 0 xs.length

@[simp] theorem partitionPoint_nil (p : α → Bool) : partitionPoint p [] = 0 := by
  unfold partitionPoint partitionBetween
  rfl

end

-- ================================================================== spans

/-- An interval of code points, both ends included, and its value. -/
structure Span (α : Type) where
  lo : Nat
  hi : Nat
  value : α
  deriving Repr, DecidableEq

namespace Span

variable {α : Type}

/-- The span of the characters between two others, whichever of them comes
first. -/
def ofChars (a b : Char) (value : α) : Span α :=
  ⟨min a.toNat b.toNat, max a.toNat b.toNat, value⟩

/-- What is left of a span without the code points from `lo` to `hi`: all of
it if none of them is in it, and otherwise what is below them and what is
above. -/
def without (lo hi : Nat) (s : Span α) : List (Span α) :=
  if s.hi < lo ∨ hi < s.lo then [s]
  else
    (if s.lo < lo then [{ s with hi := lo - 1 }] else [])
      ++ (if hi < s.hi then [{ s with lo := hi + 1 }] else [])

/-- Spans in the order in which they begin. -/
def inOrder (spans : List (Span α)) : List (Span α) := spans.mergeSort fun s t => s.lo ≤ t.lo

end Span

-- =================================================================== maps

/-- Values assigned to intervals of characters. -/
structure CharMap (α : Type) where
  spans : List (Span α)
  deriving Repr

namespace CharMap

variable {α : Type}

/-- The map that assigns nothing. -/
def empty : CharMap α := ⟨[]⟩

/-- Whether nothing is assigned. -/
def isEmpty (m : CharMap α) : Bool := m.spans.isEmpty

/-- What a new span leaves of the spans of a map, and the new span. -/
def cut (m : CharMap α) (new : Span α) : List (Span α) :=
  m.spans.flatMap (Span.without new.lo new.hi) ++ [new]

/-- Assigns `value` to every character between `a` and `b`, whichever of
them comes first. -/
def assign (m : CharMap α) (a b : Char) (value : α) : CharMap α :=
  ⟨Span.inOrder (m.cut (Span.ofChars a b value))⟩

/-- The value assigned to a character: the first span that does not end
before it decides. -/
def find? (m : CharMap α) (c : Char) : Option α :=
  let first := m.spans[partitionPoint (fun s => s.hi < c.toNat) m.spans]?
  (first.filter fun s => s.lo ≤ c.toNat).map Span.value

@[simp] theorem find?_empty (c : Char) : (empty : CharMap α).find? c = none := by
  simp [find?, empty]

/-- The map that assigns in turn, later assignments over earlier ones. -/
def ofList (entries : List (Char × Char × α)) : CharMap α :=
  entries.foldl (fun m e => m.assign e.1 e.2.1 e.2.2) empty

end CharMap

/-- A set of characters in which single intervals are switched on or off. -/
abbrev CharClass := CharMap Bool

/-- Whether a character's latest switch is on. -/
def CharClass.contains (k : CharClass) (c : Char) : Bool := (k.find? c).getD false

/-- The class of the given intervals. -/
def CharClass.ofRanges (ranges : List (Char × Char)) : CharClass :=
  CharMap.ofList (ranges.map fun r => (r.1, r.2, true))

end Formula
