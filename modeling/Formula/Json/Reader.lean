/-
Reading JSON texts: one value with blanks around it. Texts that are not
JSON, numbers beyond the range of floats, unpaired surrogates, and arrays
and objects nested more than 127 deep are refused.

Every reader returns what is left of the text, which is shorter, so the
recursion is on the characters left.
-/
import Formula.Json.Numeral

namespace Formula

namespace Json

-- ================================================================ readers

/-- What was read, and fewer than `bound` characters left. -/
structure Read (α : Type) (bound : Nat) where
  value : α
  rest : List Char
  short : rest.length < bound

namespace Read

variable {α β : Type} {n m : Nat}

def weaken (r : Read α n) (h : n ≤ m) : Read α m :=
  ⟨r.value, r.rest, Nat.lt_of_lt_of_le r.short h⟩

def map (f : α → β) (r : Read α n) : Read β n := ⟨f r.value, r.rest, r.short⟩

end Read

/-- The blanks of JSON. -/
def isSpace (c : Char) : Bool := c == ' ' || c == '\t' || c == '\n' || c == '\r'

/-- What follows the blanks at the front. -/
def skipSpace (cs : List Char) : List Char := cs.dropWhile isSpace

theorem length_skipSpace_le (cs : List Char) : (skipSpace cs).length ≤ cs.length :=
  (List.dropWhile_sublist isSpace).length_le

/-- What is left after dropping is no longer than what was there. -/
theorem length_drop_lt {cs : List Char} {m : Nat} (n : Nat) (h : cs.length < m) :
    (cs.drop n).length < m := by
  rw [List.length_drop]
  omega

/-- What follows the blanks and one character more is shorter. -/
theorem length_lt_of_skipSpace {cs r : List Char} {c : Char} (h : skipSpace cs = c :: r) :
    r.length < cs.length := by
  have := length_skipSpace_le cs
  rw [h] at this
  exact this

-- ================================================================== texts

/-- The value of a hexadecimal digit in either case. -/
def hexValue? (c : Char) : Option Nat :=
  if '0' ≤ c ∧ c ≤ '9' then some (c.toNat - '0'.toNat)
  else if 'a' ≤ c ∧ c ≤ 'f' then some (c.toNat - 'a'.toNat + 10)
  else if 'A' ≤ c ∧ c ≤ 'F' then some (c.toNat - 'A'.toNat + 10)
  else none

/-- The number that four hexadecimal digits spell. -/
def hexFour? (cs : List Char) : Option Nat :=
  match cs with
  | a :: b :: c :: d :: _ => do
    let a ← hexValue? a
    let b ← hexValue? b
    let c ← hexValue? c
    let d ← hexValue? d
    return ((a * 16 + b) * 16 + c) * 16 + d
  | _ => none

/-- The character behind `\u`, and how many characters spell it. A first
surrogate must be followed by a second one. -/
def unicode? (cs : List Char) : Option (Char × Nat) := do
  let n ← hexFour? cs
  if 0xDC00 ≤ n ∧ n ≤ 0xDFFF then none
  else if n < 0xD800 ∨ 0xDBFF < n then return (Char.ofNat n, 4)
  else
    match cs.drop 4 with
    | '\\' :: 'u' :: r =>
      let m ← hexFour? r
      if 0xDC00 ≤ m ∧ m ≤ 0xDFFF then
        return (Char.ofNat ((n - 0xD800) * 0x400 + (m - 0xDC00) + 0x10000), 10)
      else none
    | _ => none

/-- The character at the front of the inside of a text, and how many
characters beyond the first one spell it. -/
def char? (c : Char) (r : List Char) : Option (Char × Nat) :=
  if c = '\\' then
    match r with
    | '"' :: _ => some ('"', 1)
    | '\\' :: _ => some ('\\', 1)
    | '/' :: _ => some ('/', 1)
    | 'b' :: _ => some ('\x08', 1)
    | 'f' :: _ => some ('\x0c', 1)
    | 'n' :: _ => some ('\n', 1)
    | 'r' :: _ => some ('\r', 1)
    | 't' :: _ => some ('\t', 1)
    | 'u' :: r => (unicode? r).map fun u => (u.1, u.2 + 1)
    | _ => none
  else if c.toNat < 0x20 then none
  else some (c, 0)

/-- The inside of a text, behind its opening quote, up to and with its
closing one. -/
def text? (cs : List Char) : Option (Read (List Char) cs.length) :=
  match cs with
  | [] => none
  | c :: r =>
    if c = '"' then some ⟨[], r, Nat.lt_succ_self _⟩
    else
      match char? c r with
      | none => none
      | some (d, n) =>
        (text? (r.drop n)).map fun t =>
          (t.map (d :: ·)).weaken (Nat.le_of_lt (length_drop_lt n (Nat.lt_succ_self _)))
termination_by cs.length
decreasing_by exact length_drop_lt n (Nat.lt_succ_self _)

-- ================================================================= values

/-- The deepest nesting of arrays and objects. -/
def maxDepth : Nat := 127

/-- The constant a word stands for, and the length of the word behind its
first letter. -/
def word? (c : Char) (r : List Char) : Option (Json × Nat) :=
  if c = 'n' ∧ "ull".toList.isPrefixOf r then some (.null, 3)
  else if c = 't' ∧ "rue".toList.isPrefixOf r then some (.boolean true, 3)
  else if c = 'f' ∧ "alse".toList.isPrefixOf r then some (.boolean false, 4)
  else none

/-- Where the next member begins: behind a comma, unless it is the first
one. Where the comma is missing, nothing begins. -/
def memberStart (first : Bool) (c : Char) (r : List Char) : List Char :=
  if first then c :: r else if c = ',' then skipSpace r else []

theorem length_lt_of_memberStart {first : Bool} {c d : Char} {r q : List Char} {m : Nat}
    (h : memberStart first c r = d :: q) (hr : r.length < m) : q.length < m := by
  unfold memberStart at h
  split at h
  · cases h
    exact hr
  · split at h
    · exact Nat.lt_trans (length_lt_of_skipSpace h) hr
    · cases h

mutual

/-- The value at the front of a text, inside at most `depth` further arrays
and objects. -/
def value? (depth : Nat) (cs : List Char) : Option (Read Json cs.length) :=
  match _h : skipSpace cs with
  | [] => none
  | c :: r =>
    have hr : r.length < cs.length := length_lt_of_skipSpace _h
    if c = '"' then
      (text? r).map fun t =>
        (t.map fun s => Json.string (String.ofList s)).weaken (Nat.le_of_lt hr)
    else if c = '[' then
      match depth with
      | 0 => none
      | depth + 1 =>
        (items? depth true r).map fun t => (t.map .array).weaken (Nat.le_of_lt hr)
    else if c = '\x7b' then
      match depth with
      | 0 => none
      | depth + 1 =>
        (members? depth true r).map fun t =>
          (t.map fun ms => Json.object (Fields.ofList ms)).weaken (Nat.le_of_lt hr)
    else if c = '-' ∨ isDigit c then
      match Numeral.read? (c :: r) with
      | none => none
      | some (n, k) =>
        n.value?.map fun j => ⟨j, r.drop (k - 1), length_drop_lt (k - 1) hr⟩
    else
      (word? c r).map fun w => ⟨w.1, r.drop w.2, length_drop_lt w.2 hr⟩
termination_by 2 * cs.length

/-- The items of an array up to its closing bracket; a comma comes before
each but the first one. -/
def items? (depth : Nat) (first : Bool) (cs : List Char) :
    Option (Read (List Json) cs.length) :=
  match _h : skipSpace cs with
  | [] => none
  | c :: r =>
    have hr : r.length < cs.length := length_lt_of_skipSpace _h
    if c = ']' then some ⟨[], r, hr⟩
    else if first then
      match value? depth (c :: r) with
      | none => none
      | some v =>
        have hv : v.rest.length ≤ cs.length := Nat.le_trans (Nat.le_of_lt v.short) hr
        (items? depth false v.rest).map fun t => (t.map (v.value :: ·)).weaken hv
    else if c = ',' then
      match value? depth r with
      | none => none
      | some v =>
        have hv : v.rest.length < cs.length := Nat.lt_trans v.short hr
        (items? depth false v.rest).map fun t =>
          (t.map (v.value :: ·)).weaken (Nat.le_of_lt hv)
    else none
termination_by 2 * cs.length + 1
decreasing_by
  · simp only [List.length_cons]
    omega
  · have := v.short
    simp only [List.length_cons] at this
    omega
  · omega
  · omega

/-- The members of an object up to its closing brace; a comma comes before
each but the first one. -/
def members? (depth : Nat) (first : Bool) (cs : List Char) :
    Option (Read (List (String × Json)) cs.length) :=
  match _h : skipSpace cs with
  | [] => none
  | c :: r =>
    have hr : r.length < cs.length := length_lt_of_skipSpace _h
    if c = '\x7d' then some ⟨[], r, hr⟩
    else
      match _hq : memberStart first c r with
      | '"' :: q =>
        have hq : q.length < cs.length := length_lt_of_memberStart _hq hr
        match text? q with
        | none => none
        | some name =>
          match _hc : skipSpace name.rest with
          | ':' :: b =>
            have hb : b.length < cs.length :=
              Nat.lt_trans (length_lt_of_skipSpace _hc) (Nat.lt_trans name.short hq)
            match value? depth b with
            | none => none
            | some v =>
              have hv : v.rest.length < cs.length := Nat.lt_trans v.short hb
              (members? depth false v.rest).map fun t =>
                (t.map ((String.ofList name.value, v.value) :: ·)).weaken (Nat.le_of_lt hv)
          | _ => none
      | _ => none
termination_by 2 * cs.length + 1

end

/-- The JSON value that a whole text is. -/
def parse? (text : String) : Option Json :=
  match value? maxDepth text.toList with
  | some r => if skipSpace r.rest = [] then some r.value else none
  | none => none

end Json

end Formula
