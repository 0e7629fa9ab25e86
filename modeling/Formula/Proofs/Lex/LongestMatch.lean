/-
Scanning for symbols is longest match. What is read at a cursor is the longest
registered symbol in front of it, for what that symbol was registered for last
(`Symbols.Longest`), or nothing where no symbol is in front
(`Symbols.NoneAt`). The order in which symbols are registered matters only
between registrations of the same one, and the empty symbol not at all.

A token is read either way: it is the symbol or one character
(`symbolAt_ofList`). Only where nothing is left is it neither, but an empty
token at which the cursor stays (`symbolAt_exhausted`).
-/
import Formula.Lex.Lexer
import Formula.Proofs.Text.Symbols

namespace Formula

-- ================================================================ the cursor

/-- `after` is `cur` behind `text`, which is what is in front of `cur`. -/
structure Cursor.Crosses (cur : Cursor) (text : List Char) (after : Cursor) : Prop where
  skipped : after = cur.skip text.length
  rest : cur.rest = text ++ after.rest
  position : after.position = cur.position + text.length

theorem Cursor.crosses_of_prefix {cur : Cursor} {text : List Char} (h : text <+: cur.rest) :
    cur.Crosses text (cur.skip text.length) := by
  obtain ⟨rest, hrest⟩ := h
  refine ⟨rfl, ?_, ?_⟩
  · rw [rest_skip, ← hrest, List.drop_left]
  · rw [position_skip, ← hrest, List.length_append, Nat.min_eq_left (Nat.le_add_right ..)]

-- =============================================================== the symbols

namespace Symbols

variable {α : Type}

/-- `text` is the longest of the symbols at the front of `cs`, and `value` is
what it was registered for last. -/
structure Longest (symbols : List (String × α)) (cs text : List Char) (value : α) : Prop where
  nonempty : text ≠ []
  front : text <+: cs
  latest : lastOf symbols text = some value
  longest : ∀ s ∈ symbols, s.1.toList <+: cs → s.1.toList.length ≤ text.length

/-- No symbol is at the front of `cs`, but for the empty one. -/
def NoneAt (symbols : List (String × α)) (cs : List Char) : Prop :=
  ∀ s ∈ symbols, s.1.toList <+: cs → s.1.toList = []

/-- A registered symbol was registered last for something. -/
theorem lastOf_ne_none {symbols : List (String × α)} {s : String × α} (h : s ∈ symbols) :
    lastOf symbols s.1.toList ≠ none := by
  intro hnone
  have hfound := Option.map_eq_none_iff.1 hnone
  exact List.find?_eq_none.1 hfound s (List.mem_reverse.2 h) (decide_eq_true rfl)

/-- What was registered last for something is a registered symbol. -/
theorem exists_of_lastOf {symbols : List (String × α)} {text : List Char} {value : α}
    (h : lastOf symbols text = some value) : ∃ s ∈ symbols, s.1.toList = text := by
  obtain ⟨s, hfind, -⟩ := Option.map_eq_some_iff.1 h
  exact ⟨s, List.mem_reverse.1 (List.mem_of_find?_eq_some hfind),
    by simpa using List.find?_some hfind⟩

/-- The longest symbol at the front is unique, and so is what it stands for. -/
theorem Longest.unique {symbols : List (String × α)} {cs text text' : List Char} {v v' : α}
    (h : Longest symbols cs text v) (h' : Longest symbols cs text' v') : text = text' ∧ v = v' := by
  obtain ⟨s, hs, rfl⟩ := exists_of_lastOf h.latest
  obtain ⟨s', hs', rfl⟩ := exists_of_lastOf h'.latest
  have hlength : s.1.toList.length = s'.1.toList.length :=
    Nat.le_antisymm (h'.longest s hs h.front) (h.longest s' hs' h'.front)
  have htext : s.1.toList = s'.1.toList :=
    (List.prefix_of_prefix_length_le h.front h'.front (Nat.le_of_eq hlength)).eq_of_length hlength
  have hvalue : some v = some v' := by rw [← h.latest, ← h'.latest, htext]
  exact ⟨htext, Option.some.inj hvalue⟩

theorem Longest.not_noneAt {symbols : List (String × α)} {cs text : List Char} {v : α}
    (h : Longest symbols cs text v) : ¬ NoneAt symbols cs := by
  intro hnone
  obtain ⟨s, hs, rfl⟩ := exists_of_lastOf h.latest
  exact h.nonempty (hnone s hs h.front)

/-- Matching in the tree of some symbols finds the longest of them, or there is
none. -/
theorem longest?_ofList (symbols : List (String × α)) (cs : List Char) :
    (∃ n v, (ofList symbols).longest? cs = some (n, v) ∧ (cs.take n).length = n
        ∧ Longest symbols cs (cs.take n) v)
      ∨ ((ofList symbols).longest? cs = none ∧ NoneAt symbols cs) := by
  -- a symbol at the front is what is in front, up to where it ends
  have hfront : ∀ s ∈ symbols, s.1.toList <+: cs → s.1.toList ≠ [] →
      (ofList symbols).registered? (cs.take s.1.toList.length) ≠ none := by
    intro s hs hprefix hne
    rw [← List.prefix_iff_eq_take.1 hprefix, registered?_ofList symbols hne]
    exact lastOf_ne_none hs
  rcases longest?_cases (ofList symbols) cs with ⟨n, v, hsome, hle, hreg, hmax⟩ | ⟨hnone, hno⟩
  · have hlength : (cs.take n).length = n := by rw [List.length_take, Nat.min_eq_left hle]
    have hne : cs.take n ≠ [] := by
      intro hnil
      rw [hnil, registered?_nil] at hreg
      cases hreg
    refine .inl ⟨n, v, hsome, hlength, hne, List.take_prefix n cs, ?_, fun s hs hprefix => ?_⟩
    · rw [← registered?_ofList symbols hne, hreg]
    · by_contra hlonger
      rw [hlength, Nat.not_le] at hlonger
      have hne' : s.1.toList ≠ [] := List.ne_nil_of_length_pos (Nat.zero_lt_of_lt hlonger)
      exact hfront s hs hprefix hne' (hmax _ hlonger hprefix.length_le)
  · refine .inr ⟨hnone, fun s hs hprefix => ?_⟩
    by_contra hne
    exact hfront s hs hprefix hne (hno _)

/-- A cursor reads the longest symbol and stands right behind it, or there is
none and it stays. -/
theorem longestMatch_ofList (symbols : List (String × α)) (cur : Cursor) :
    (∃ text value, Longest symbols cur.rest text value
        ∧ (ofList symbols).longestMatch cur = (some (text, value), cur.skip text.length))
      ∨ (NoneAt symbols cur.rest ∧ (ofList symbols).longestMatch cur = (none, cur)) := by
  rw [longestMatch_eq]
  rcases longest?_ofList symbols cur.rest with ⟨n, v, hsome, hlength, hlongest⟩ | ⟨hnone, hno⟩
  · exact .inl ⟨_, v, hlongest, by simp only [hsome, hlength]⟩
  · exact .inr ⟨hno, by simp only [hnone]⟩

theorem longestMatch_eq_some_iff (symbols : List (String × α)) (cur after : Cursor)
    (text : List Char) (value : α) :
    (ofList symbols).longestMatch cur = (some (text, value), after)
      ↔ Longest symbols cur.rest text value ∧ cur.Crosses text after := by
  rcases longestMatch_ofList symbols cur with ⟨text', value', hlongest, heq⟩ | ⟨hno, heq⟩
  · rw [heq]
    constructor
    · intro h
      cases h
      exact ⟨hlongest, Cursor.crosses_of_prefix hlongest.front⟩
    · rintro ⟨h, hcrosses⟩
      obtain ⟨rfl, rfl⟩ := h.unique hlongest
      rw [hcrosses.skipped]
  · rw [heq]
    constructor
    · intro h
      cases h
    · rintro ⟨h, -⟩
      exact absurd hno h.not_noneAt

theorem longestMatch_eq_none_iff (symbols : List (String × α)) (cur after : Cursor) :
    (ofList symbols).longestMatch cur = (none, after)
      ↔ NoneAt symbols cur.rest ∧ after = cur := by
  rcases longestMatch_ofList symbols cur with ⟨text, value, hlongest, heq⟩ | ⟨hno, heq⟩
  · rw [heq]
    constructor
    · intro h
      cases h
    · rintro ⟨h, -⟩
      exact absurd h hlongest.not_noneAt
  · rw [heq]
    constructor
    · intro h
      cases h
      exact ⟨hno, rfl⟩
    · rintro ⟨-, rfl⟩
      rfl

end Symbols

-- ================================================================= the tokens

namespace Lexer

open Symbols

/-- Reading at a cursor takes what the rule for symbols takes. -/
theorem symbolAt_eq (known : Symbols Token.Kind) (cur : Cursor) :
    symbolAt known cur = (Lexeme.token (Rule.readSymbol known cur.rest) cur.place,
      cur.skip (Rule.readSymbol known cur.rest).source.length) := by
  unfold symbolAt Rule.readSymbol
  rw [longestMatch_eq]
  cases hmatch : known.longest? cur.rest with
  | some m =>
      have hlength : (cur.rest.take m.1).length = m.1 := by
        rw [List.length_take, Nat.min_eq_left (length_longest?_le hmatch)]
      simp only [Lexeme.plain, Lexeme.token, hlength]
  | none =>
      simp only [Cursor.read, Cursor.peek, Lexeme.plain, Lexeme.token]
      cases hrest : cur.rest with
      | nil => simp [Cursor.advance, Cursor.skip, hrest]
      | cons c rest => simp [Cursor.skip]

/-- What is read as a symbol at a cursor, and the cursor behind it. -/
inductive ReadAsSymbol (symbols : List (String × Token.Kind)) (cur : Cursor) :
    Token × Cursor → Prop where
  /-- A registered symbol, where one is in front. -/
  | registered {text : List Char} {kind : Token.Kind} (h : Longest symbols cur.rest text kind) :
    ReadAsSymbol symbols cur (⟨kind, String.ofList text, cur.place⟩, cur.skip text.length)
  /-- One character, where none is. -/
  | character {c : Char} {rest : List Char} (h : NoneAt symbols cur.rest)
      (hrest : cur.rest = c :: rest) :
    ReadAsSymbol symbols cur (⟨.symbol, String.ofList [c], cur.place⟩, cur.skip 1)
  /-- Nothing at the end. -/
  | nothing (h : cur.rest = []) : ReadAsSymbol symbols cur (⟨.symbol, "", cur.place⟩, cur)

theorem readAsSymbol_symbolAt (symbols : List (String × Token.Kind)) (cur : Cursor) :
    ReadAsSymbol symbols cur (symbolAt (ofList symbols) cur) := by
  unfold symbolAt
  rcases longestMatch_ofList symbols cur with ⟨text, kind, hlongest, heq⟩ | ⟨hno, heq⟩
  · rw [heq]
    exact .registered hlongest
  · rw [heq]
    cases hrest : cur.rest with
    | nil =>
        have hread : cur.read = (none, cur) := by
          simp [Cursor.read, Cursor.peek, Cursor.advance, hrest]
        simp only [hread]
        exact .nothing hrest
    | cons c rest =>
        have hread : cur.read = (some c, cur.skip 1) := by
          simp [Cursor.read, Cursor.peek, Cursor.skip, hrest]
        simp only [hread]
        exact .character hno hrest

/-- A lexer with these symbols reads the same token wherever it is told to read
a symbol. -/
theorem readWith_symbols (lx : Lexer) (known : Symbols Token.Kind) (cur : Cursor) :
    { lx with symbols := some known }.readWith .symbol cur
      = (.ok (some (symbolAt known cur).1), (symbolAt known cur).2) := by
  rw [symbolAt_eq]
  rfl

/-- Scanning for symbols is longest match: at every cursor the longest symbol in
front of it is read and nothing behind it, or the cursor stays. The token read
there is that symbol or one character, unless nothing is left. -/
theorem symbolAt_ofList (symbols : List (String × Token.Kind)) (cur : Cursor) :
    (∀ text kind after, (ofList symbols).longestMatch cur = (some (text, kind), after)
        ↔ Longest symbols cur.rest text kind ∧ cur.Crosses text after)
      ∧ (∀ after, (ofList symbols).longestMatch cur = (none, after)
        ↔ NoneAt symbols cur.rest ∧ after = cur)
      ∧ ReadAsSymbol symbols cur (symbolAt (ofList symbols) cur)
      ∧ ∀ lx : Lexer, { lx with symbols := some (ofList symbols) }.readWith .symbol cur
          = (.ok (some (symbolAt (ofList symbols) cur).1), (symbolAt (ofList symbols) cur).2) :=
  ⟨fun text kind after => longestMatch_eq_some_iff symbols cur after text kind,
    fun after => longestMatch_eq_none_iff symbols cur after,
    readAsSymbol_symbolAt symbols cur,
    fun lx => readWith_symbols lx (ofList symbols) cur⟩

/-- At the end of a text neither a symbol nor a character is read. -/
theorem symbolAt_exhausted :
    ¬ ∀ (symbols : List (String × Token.Kind)) (cur : Cursor),
      (∃ text kind, Longest symbols cur.rest text kind
        ∧ (symbolAt (ofList symbols) cur).2 = cur.skip text.length)
      ∨ (∃ c, (symbolAt (ofList symbols) cur).1.text = String.ofList [c]
        ∧ (symbolAt (ofList symbols) cur).2.position = cur.position + 1) := by
  intro h
  have hend := h [("<=", .symbol)] ((Cursor.start "a").skip 1)
  rcases hend with ⟨text, kind, hlongest, -⟩ | ⟨c, -, hpos⟩
  · exact hlongest.nonempty (List.prefix_nil.1 hlongest.front)
  · cases hpos

end Lexer

end Formula
