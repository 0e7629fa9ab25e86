/-
That a lexer which drops nothing loses nothing. Main statement: its tokens
spell the text, one after the other, each at its place, unless the text ends
in the middle of a quoted text or a comment; and every single token takes
at least one character (`tokens_tile`).

Any rule may fill a role that any character has, so a rule may meet what it
cannot read. What carries the proof is that a lexeme is cut from the front
of what is left whatever rule cuts it. Two things break the tiling and are
excluded (`Lossless`): a symbol that passes for the end of the text, and
names in double quotes, which are decoded as they are read.
-/
import Formula.Lex.General
import Formula.Proofs.Lex.Reading

namespace Formula

-- =============================================================== tilings

/-- The characters that tokens spell, one after the other. -/
def spelling (ts : List Token) : List Char := ts.flatMap fun t => t.text.toList

/-- What it is for tokens to tile a text: they spell it, only a token for
the end of the text is empty, and each has the place of the first of its
characters. -/
structure Tiled (ts : List Token) (text : List Char) : Prop where
  spelled : spelling ts = text
  filled : ∀ before t after, ts = before ++ t :: after →
    t.text ≠ "" ∨ t.kind = .eof ∧ after = []
  placed : ∀ before t after, ts = before ++ t :: after →
    t.place = .after (spelling before)

/-- Tokens that tile the text behind `front`, token by token. -/
inductive Tiles : (front rest : List Char) → List Token → Prop where
  | none {front : List Char} : Tiles front [] []
  | last {front : List Char} : Tiles front [] [Lexer.endToken (.after front)]
  | more {front rest : List Char} {t : Token} {ts : List Token}
      (filled : t.text.toList ≠ []) (kind : t.kind ≠ .eof) (place : t.place = .after front)
      (tiles : Tiles (front ++ t.text.toList) rest ts) :
      Tiles front (t.text.toList ++ rest) (t :: ts)

namespace Tiles

variable {front rest : List Char} {ts : List Token}

theorem spelled (h : Tiles front rest ts) : spelling ts = rest := by
  induction h with
  | none => rfl
  | last => rfl
  | more filled kind place tiles ih =>
      unfold spelling at ih ⊢
      rw [List.flatMap_cons, ih]

/-- What tiling token by token says of a token in the middle. -/
theorem split (h : Tiles front rest ts) {before after : List Token} {t : Token}
    (hts : ts = before ++ t :: after) :
    (t.text ≠ "" ∨ t.kind = .eof ∧ after = []) ∧ t.place = .after (front ++ spelling before) := by
  induction h generalizing before with
  | none => simp at hts
  | last =>
      cases before with
      | nil =>
          cases hts
          exact ⟨.inr ⟨rfl, rfl⟩, by simp [spelling, Lexer.endToken]⟩
      | cons u before => simp at hts
  | @more front rest u us filled kind place tiles ih =>
      cases before with
      | nil =>
          cases hts
          refine ⟨.inl ?_, by simp [spelling, place]⟩
          intro h
          exact filled (by rw [h]; rfl)
      | cons v before =>
          cases hts
          obtain ⟨hfilled, hplace⟩ := ih rfl
          refine ⟨hfilled, ?_⟩
          rw [hplace, spelling, spelling, List.flatMap_cons, List.append_assoc]

theorem tiled (h : Tiles [] rest ts) : Tiled ts rest where
  spelled := h.spelled
  filled := fun _ _ _ hts => (h.split hts).1
  placed := fun _ _ _ hts => (h.split hts).2

/-- Blanks next to each other may be joined. -/
theorem joinBlanks (h : Tiles front rest ts) : Tiles front rest (Lexer.joinBlanks ts) := by
  induction h with
  | none => exact .none
  | last => exact .last
  | @more front rest t ts filled kind place tiles ih =>
      rw [Lexer.joinBlanks]
      split
      · next u us hjoin =>
        rw [hjoin] at ih
        split
        · next hblank =>
          cases ih with
          | last => exact absurd hblank.2 (by simp [Lexer.endToken])
          | @more _ rest' _ _ _ _ _ tiles' =>
              have hmore := @Tiles.more front rest' { t with text := t.text ++ u.text } us
                (by simp [filled]) kind place (by simpa using tiles')
              simpa using hmore
        · exact .more filled kind place ih
      · next hjoin =>
        rw [hjoin] at ih
        exact .more filled kind place ih

end Tiles

namespace Lexer

variable {lx : Lexer}

-- ============================================================== lexemes

/-- What a lexer must do to lose nothing: drop no token before the end of
the text, keep quoted text as it is written, have no symbol for the end of
the text, and make no names of texts in double quotes. -/
structure Lossless (lx : Lexer) : Prop where
  unknown : lx.options.skipUnknown = false
  whitespaces : lx.options.skipWhitespaces = false
  comments : lx.options.skipComments = false
  strings : lx.options.decodeStrings = false
  symbols : ∀ role known, lx.rule? role = some (.symbols known) → .eof ∉ known.values
  names : ∀ role, lx.roles.find? '"' = some role → lx.rule? role ≠ some (.quotes .naming)

namespace Lossless

theorem skips (h : lx.Lossless) (kind : Token.Kind) : lx.options.skips kind = false := by
  unfold Options.skips
  split
  · exact h.unknown
  · exact h.whitespaces
  · exact h.comments
  · rfl

/-- No rule makes a token for the end of the text. -/
theorem eof_not_mem_kinds (h : lx.Lossless) {c : Char} {rule : Rule} (hrule : lx.Serves c rule) :
    Token.Kind.eof ∉ rule.kinds := by
  have hknown : ∀ known, lx.Serves c (.symbols known) → Token.Kind.eof ∉ known.values := by
    intro known hserves
    rcases hserves with ⟨role, -, hrole⟩ | hsymbols
    · exact h.symbols role known hrole
    · cases hsymbols
      cases hlx : lx.symbols with
      | none => exact List.not_mem_nil
      | some known =>
          refine h.symbols .symbol known ?_
          unfold rule?
          rw [hlx]
          rfl
  cases rule with
  | symbols known =>
      intro hmem
      -- a character that is no known symbol is one of kind `symbol`
      rcases List.mem_cons.1 hmem with heof | hmem
      · cases heof
      · exact hknown known hrule hmem
  | comments rule => simp [Rule.kinds]
  | numbers rule => simp [Rule.kinds]
  | quotes rule => simp [Rule.kinds]
  | runs rule => cases rule <;> simp [Rule.kinds]
  | prose => simp [Rule.kinds]

/-- The text of a lexeme is what was taken, and it does not pass for the
end of the text. -/
theorem lexeme (h : lx.Lossless) {c : Char} {r : List Char} {l : Lexeme}
    (hl : lx.lexeme c r = .ok l) : l.text = l.source ∧ l.kind ≠ .eof := by
  rcases cut_of_lexeme hl with rfl | ⟨rule, hserves, hcut⟩
  · exact ⟨rfl, Token.Kind.noConfusion⟩
  · refine ⟨?_, ?_⟩
    · rcases hcut.text with htext | ⟨rfl, hquote⟩
      · exact htext
      · -- the rule would have to be the one for a double quote
        obtain rfl : c = '"' := Option.some.inj hquote
        rcases hserves with ⟨role, hrole, hrule⟩ | hsymbols
        · exact absurd hrule (h.names role hrole)
        · cases hsymbols
    · intro heof
      exact h.eof_not_mem_kinds hserves (heof ▸ hcut.kind)

/-- Finishing a token changes no more than the kind of a number. -/
theorem finish (h : lx.Lossless) (t : Token) :
    (lx.finish t).text = t.text ∧ (t.kind ≠ .eof → (lx.finish t).kind ≠ .eof) := by
  unfold Lexer.finish
  rw [h.strings, Bool.false_and]
  split
  case h_4 => exact ⟨rfl, id⟩
  case h_5 => exact ⟨rfl, id⟩
  all_goals
    split
    · exact ⟨rfl, fun _ => Token.Kind.noConfusion⟩
    · exact ⟨rfl, id⟩

end Lossless

-- =============================================================== tokens

/-- What reading to the end of a text comes to: a tiling, or the failure
that an end is missing. -/
def TilesOrFails (front rest : List Char) : Except Fault (List Token) → Prop
  | .ok ts => Tiles front rest ts
  | .error fault => fault.cause.Unterminated

/-- One token tiles what it takes, and the others tile the rest. -/
theorem TilesOrFails.more {front rest : List Char} {t : Token}
    {result : Except Fault (List Token)}
    (filled : t.text.toList ≠ []) (kind : t.kind ≠ .eof) (place : t.place = .after front)
    (h : TilesOrFails (front ++ t.text.toList) rest result) :
    TilesOrFails front (t.text.toList ++ rest) (result.map (t :: ·)) := by
  cases result with
  | error fault => exact h
  | ok ts => exact Tiles.more filled kind place h

/-- The tokens behind some characters tile what is left. -/
theorem collect_tiles (h : lx.Lossless) (front rest : List Char) :
    TilesOrFails front rest (lx.collect (.behind front rest)) := by
  match rest with
  | [] =>
      rw [collect_end]
      cases lx.options.skipEof with
      | true => exact Tiles.none
      | false => exact Tiles.last
  | c :: r =>
      cases hl : lx.lexeme c r with
      | error cause =>
          rw [collect_of_error (next_of_error front hl)]
          exact unterminated_of_lexeme hl
      | ok l =>
          obtain ⟨htext, heof⟩ := h.lexeme hl
          obtain ⟨rest, hrest⟩ := isPrefix_source hl
          have hshort : rest.length < (c :: r).length := by
            have := List.length_pos_iff.2 (source_ne_nil hl)
            have := congrArg List.length hrest
            rw [List.length_append] at this
            omega
          have hnext := next_of_kept front hl hrest.symm heof (h.skips l.kind)
          obtain ⟨hfinish, hkind⟩ := h.finish (Lexeme.token l (.after front))
          have hplace : (lx.finish (Lexeme.token l (.after front))).place = .after front :=
            place_finish _
          -- all that counts of the finished token is its text, kind and place
          generalize lx.finish (Lexeme.token l (.after front)) = t at hnext hfinish hkind hplace
          have hsource : t.text.toList = l.source := by
            rw [hfinish, ← htext]
            exact String.toList_ofList
          rw [collect_of_next hnext (hkind heof), ← hrest, ← hsource]
          refine TilesOrFails.more ?_ (hkind heof) hplace ?_
          · rw [hsource]
            exact source_ne_nil hl
          · exact collect_tiles h _ rest
termination_by rest.length
decreasing_by exact hshort

/-- Reading one token takes at least one character, and all that are left at
most. -/
theorem read_skips (lx : Lexer) {cur : Cursor} (hcur : cur.rest ≠ []) :
    ∃ n, 0 < n ∧ n ≤ cur.rest.length ∧ (lx.read cur).2 = cur.skip n := by
  unfold read
  cases hrest : cur.rest with
  | nil => exact absurd hrest hcur
  | cons c r =>
      dsimp only
      cases hl : lx.lexeme c r with
      | error cause =>
          refine ⟨cur.rest.length, ?_, Nat.le_of_eq (by rw [hrest]), rfl⟩
          rw [hrest]
          exact Nat.succ_pos _
      | ok l =>
          exact ⟨l.source.length, List.length_pos_iff.2 (source_ne_nil hl),
            (isPrefix_source hl).length_le, rfl⟩

/-- A lexer that drops nothing tiles every text with its tokens, or fails
for want of an end; and wherever a text is not over, reading a token moves
forward. -/
theorem tokens_tile (lx : Lexer) (h : lx.Lossless) (text : String) :
    ((∃ ts, lx.tokens text = .ok ts ∧ Tiled ts text.toList)
      ∨ ∃ fault, lx.tokens text = .error fault ∧ fault.cause.Unterminated)
    ∧ ∀ cur : Cursor, cur.rest ≠ [] →
        ∃ n, 0 < n ∧ n ≤ cur.rest.length ∧ (lx.read cur).2 = cur.skip n
          ∧ (lx.read cur).2.position = cur.position + n := by
  refine ⟨?_, fun cur hcur => ?_⟩
  · have htiles := collect_tiles h [] text.toList
    rw [tokens_eq, Cursor.start_eq_behind]
    cases hts : lx.collect (.behind [] text.toList) with
    | error fault =>
        rw [hts] at htiles
        exact .inr ⟨fault, rfl, htiles⟩
    | ok ts =>
        rw [hts] at htiles
        refine .inl ⟨_, rfl, ?_⟩
        split
        · exact (Tiles.joinBlanks htiles).tiled
        · exact Tiles.tiled htiles
  · obtain ⟨n, hpos, hle, hskip⟩ := lx.read_skips hcur
    refine ⟨n, hpos, hle, hskip, ?_⟩
    rw [hskip, Cursor.position_skip, Nat.min_eq_left hle]

/-- The general lexer with rules in roles that are not their own, and nothing
dropped. -/
def crossed : Lexer :=
  { general with
    options := .none
    comments := some (.numbers .scientific)
    numbers := some (.comments .slashed)
    blanks := some (.word controlBlanks) }

theorem crossed_lossless : crossed.Lossless where
  unknown := rfl
  whitespaces := rfl
  comments := rfl
  strings := rfl
  symbols := by
    intro role known hrule
    cases role with
    | symbol =>
        cases hrule
        intro hmem
        obtain ⟨s, hs, hkind⟩ := Symbols.mem_of_mem_values_ofList hmem
        obtain ⟨text, -, rfl⟩ := List.mem_map.1 hs
        cases hkind
    | comment => cases hrule
    | number => cases hrule
    | quote => cases hrule
    | whitespace => cases hrule
    | word => cases hrule
  names := by
    intro role _ hrule
    cases role <;> cases hrule

/-- A number sign that a rule for numbers hands over, a minus sign that a rule
for comments does, and a quoted text at the end. -/
theorem tokens_tile_crossed :
    crossed.Lossless
      ∧ ((∃ ts, crossed.tokens "#1 -2\n'it''s'" = .ok ts ∧ Tiled ts "#1 -2\n'it''s'".toList)
        ∨ ∃ fault, crossed.tokens "#1 -2\n'it''s'" = .error fault ∧ fault.cause.Unterminated)
      ∧ ∀ cur : Cursor, cur.rest ≠ [] →
          ∃ n, 0 < n ∧ n ≤ cur.rest.length ∧ (crossed.read cur).2 = cur.skip n
            ∧ (crossed.read cur).2.position = cur.position + n :=
  ⟨crossed_lossless, tokens_tile crossed crossed_lossless "#1 -2\n'it''s'"⟩

end Lexer

end Formula
