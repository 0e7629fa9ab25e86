/-
What the rules take, and how a lexer goes from token to token. Main
statements: a lexeme is cut from the front of what is left (`cut_of_lexeme`),
and the tokens of a text follow lexeme by lexeme (`next_of_kept`,
`next_of_skipped`, `collect_of_next`). Blanks may be joined while the tokens
are read or when all are (`tokens_eq`).

A rule leaves nothing out of what it takes, so the text of a lexeme is what
was taken, with one exception: the rule that makes a name of a text in
double quotes. All later modules speak of cursors as `Cursor.behind`.
-/
import Formula.Lex.Lexer
import Formula.Proofs.Text.Position
import Formula.Proofs.Text.Symbols

namespace Formula

-- =================================================== what the rules take

namespace Rule

variable {cs : List Char} {l : Lexeme}

/-- The kinds of the lexemes a rule makes. -/
def kinds : Rule → List Token.Kind
  | .comments _ => [.comment]
  | .numbers _ => [.integer, .float]
  | .quotes _ => [.quoted, .word]
  | .symbols known => .symbol :: known.values
  | .runs (.blanks _) => [.whitespace]
  | .runs (.word _) => [.word]
  | .prose => [.special]

/-- What it is for a rule to cut a lexeme from the front of some characters.
Only names in quotes have another text than what was taken. -/
structure Cuts (rule : Rule) (cs : List Char) (l : Lexeme) : Prop where
  front : l.source <+: cs
  kind : l.kind ∈ rule.kinds
  text : l.text = l.source ∨ rule = .quotes .naming ∧ cs.head? = some '"'

/-- A lexeme whose text is what was taken is cut if it was in front. -/
theorem Cuts.plain {rule : Rule} {kind : Token.Kind} {source : List Char}
    (hfront : source <+: cs) (hkind : kind ∈ rule.kinds) :
    rule.Cuts cs (.plain kind source) where
  front := hfront
  kind := hkind
  text := .inl rfl

/-- A run of characters of a class ends where the class does. -/
theorem takeWhile_append_stop {p : Char → Bool} {run rest : List Char}
    (hrun : ∀ c ∈ run, p c = true) (hrest : ∀ c, rest.head? = some c → p c = false) :
    (run ++ rest).takeWhile p = run := by
  rw [List.takeWhile_append_of_pos hrun]
  cases rest with
  | nil => simp
  | cons c r =>
      rw [List.takeWhile_cons_of_neg (by simp [hrest c rfl]), List.append_nil]

/-- What a rule takes may be taken in two steps. -/
theorem isPrefix_append {a b : List Char} (ha : a <+: cs) (hb : b <+: cs.drop a.length) :
    a ++ b <+: cs := by
  obtain ⟨r, rfl⟩ := ha
  rw [List.drop_left] at hb
  exact (List.prefix_append_right_inj a).2 hb

theorem isPrefix_blockText {block : List Char} (h : blockText cs = some block) :
    block <+: cs := by
  fun_induction blockText cs generalizing block with
  | case1 => cases h
  | case2 => cases h
  | case3 c d r hend =>
      cases h
      exact ⟨r, rfl⟩
  | case4 c d r hend ih =>
      obtain ⟨more, hmore, rfl⟩ := Option.map_eq_some_iff.1 h
      exact List.cons_prefix_cons.2 ⟨rfl, ih hmore⟩

theorem cuts_of_comments {rule : Comments} (h : rule.read cs = .ok (some l)) :
    (Rule.comments rule).Cuts cs l := by
  unfold Comments.read at h
  split at h
  · cases h
    exact Cuts.plain (List.takeWhile_prefix _) (List.mem_singleton.2 rfl)
  · cases h
    exact Cuts.plain (List.takeWhile_prefix _) (List.mem_singleton.2 rfl)
  · split at h
    · next block hblock =>
      cases h
      refine Cuts.plain ?_ (List.mem_singleton.2 rfl)
      exact (List.prefix_append_right_inj ['/', '*']).2 (isPrefix_blockText hblock)
    · cases h
  · cases h

theorem isPrefix_leadingDigits (cs : List Char) : leadingDigits cs <+: cs :=
  List.takeWhile_prefix _

theorem isPrefix_fractionText (cs : List Char) : fractionText cs <+: cs := by
  unfold fractionText
  split
  · split
    · exact List.nil_prefix
    · exact List.cons_prefix_cons.2 ⟨rfl, isPrefix_leadingDigits _⟩
  · exact List.nil_prefix

theorem isPrefix_exponentText (cs : List Char) : exponentText cs <+: cs := by
  unfold exponentText
  split
  · split
    · split
      · split
        · split
          · exact List.nil_prefix
          · exact (List.prefix_append_right_inj [_, _]).2 (isPrefix_leadingDigits _)
        · split
          · exact List.nil_prefix
          · exact List.cons_prefix_cons.2 ⟨rfl, isPrefix_leadingDigits _⟩
      · exact List.nil_prefix
    · exact List.nil_prefix
  · exact List.nil_prefix

theorem isPrefix_sign (rule : Numbers) (cs : List Char) : rule.sign cs <+: cs := by
  unfold Numbers.sign
  split
  · exact ⟨_, rfl⟩
  · exact List.nil_prefix

theorem isPrefix_exponent (rule : Numbers) (cs : List Char) : rule.exponent cs <+: cs := by
  cases rule with
  | signed => exact List.nil_prefix
  | scientific => exact isPrefix_exponentText cs

theorem cuts_of_numbers {rule : Numbers} (h : rule.read cs = some l) :
    (Rule.numbers rule).Cuts cs l := by
  have hwhole := isPrefix_append (isPrefix_sign rule cs) (isPrefix_leadingDigits _)
  have hfraction := isPrefix_append hwhole (isPrefix_fractionText _)
  have hexponent := isPrefix_append hfraction (isPrefix_exponent rule _)
  simp only [List.length_append] at hexponent
  unfold Numbers.read at h
  dsimp only at h
  split at h
  · cases h
  · cases h
    exact Cuts.plain hexponent (by split <;> simp [kinds])

theorem isPrefix_closing {q : Char} {body : List Char} (h : Quoted.closing q cs = some body) :
    body <+: cs := by
  fun_induction Quoted.closing q cs generalizing body with
  | case1 => cases h
  | case2 => cases h; exact List.prefix_refl _
  | case3 => cases h
  | case4 r ih =>
      obtain ⟨more, hmore, rfl⟩ := Option.map_eq_some_iff.1 h
      exact (List.prefix_append_right_inj [_, _]).2 (ih hmore)
  | case5 => cases h; exact ⟨_, rfl⟩
  | case6 c d r hne ih =>
      obtain ⟨more, hmore, rfl⟩ := Option.map_eq_some_iff.1 h
      exact List.cons_prefix_cons.2 ⟨rfl, ih hmore⟩

theorem cuts_of_quotes {rule : Quotes} (h : rule.read cs = .ok l) :
    (Rule.quotes rule).Cuts cs l := by
  unfold Quotes.read at h
  split at h
  · cases h
  · next q r =>
    split at h
    · cases h
    · next body hbody =>
      have hfront : q :: body <+: q :: r :=
        List.cons_prefix_cons.2 ⟨rfl, isPrefix_closing hbody⟩
      split at h
      · cases h
        exact Cuts.plain hfront (by simp [kinds])
      · split at h
        · next hq =>
          cases h
          exact ⟨hfront, by simp [kinds], .inr ⟨rfl, by simp [hq]⟩⟩
        · cases h
          exact Cuts.plain hfront (by simp [kinds])

theorem cuts_of_symbols (known : Symbols Token.Kind) (cs : List Char) :
    (Rule.symbols known).Cuts cs (readSymbol known cs) := by
  unfold readSymbol
  split
  · next n kind h =>
    exact Cuts.plain (List.take_prefix n cs)
      (List.mem_cons_of_mem _ (Symbols.mem_values_of_longest? h))
  · exact Cuts.plain (List.take_prefix 1 cs) (List.mem_cons_self ..)

theorem source_readSymbol_ne_nil (known : Symbols Token.Kind) (c : Char) (r : List Char) :
    (readSymbol known (c :: r)).source ≠ [] := by
  unfold readSymbol
  split
  · next n kind h =>
    have hpos := Symbols.longest?_pos h
    intro hnil
    have hlength := congrArg List.length hnil
    simp only [Lexeme.plain, List.length_take, List.length_cons, List.length_nil] at hlength
    omega
  · exact List.cons_ne_nil _ _

theorem cuts_of_runs (rule : Runs) (cs : List Char) :
    (Rule.runs rule).Cuts cs (rule.read cs) := by
  cases rule with
  | blanks members =>
      exact Cuts.plain (List.takeWhile_prefix _) (List.mem_singleton.2 rfl)
  | word members =>
      refine Cuts.plain (isPrefix_append (List.take_prefix 1 cs) ?_) (List.mem_singleton.2 rfl)
      cases cs with
      | nil => exact List.nil_prefix
      | cons c r => exact List.takeWhile_prefix _

theorem isPrefix_proseText (cs : List Char) : proseText cs <+: cs := by
  fun_induction proseText cs with
  | case1 => exact List.nil_prefix
  | case2 => exact List.prefix_refl _
  | case3 => exact List.nil_prefix
  | case4 c d r hbraces ih => exact List.cons_prefix_cons.2 ⟨rfl, ih⟩

/-- Every rule cuts what it finds from the front of a text. -/
theorem cuts_of_read {rule : Rule} (h : rule.read cs = .ok (some l)) : rule.Cuts cs l := by
  cases rule with
  | comments rule => exact cuts_of_comments h
  | numbers rule => exact cuts_of_numbers (Except.ok.inj h)
  | quotes rule =>
      cases hread : rule.read cs with
      | error cause => rw [Rule.read, hread] at h; cases h
      | ok found =>
          rw [Rule.read, hread] at h
          cases h
          exact cuts_of_quotes hread
  | symbols known =>
      cases h
      exact cuts_of_symbols known cs
  | runs rule =>
      cases h
      exact cuts_of_runs rule cs
  | prose =>
      cases h
      exact Cuts.plain (isPrefix_proseText cs) (List.mem_singleton.2 rfl)

end Rule

/-- A text or comment whose end is missing. -/
def Cause.Unterminated (cause : Cause) : Prop :=
  cause = .unterminatedComment ∨ ∃ q, cause = .unterminatedString q

/-- The only failure of a rule where there is something to read: the end is
missing. -/
theorem Rule.unterminated_of_read {rule : Rule} {c : Char} {r : List Char} {cause : Cause}
    (h : rule.read (c :: r) = .error cause) : cause.Unterminated := by
  cases rule with
  | comments rule =>
      change rule.read (c :: r) = .error cause at h
      unfold Comments.read at h
      split at h
      · cases h
      · cases h
      · split at h
        · cases h
        · cases h
          exact .inl rfl
      · cases h
  | quotes rule =>
      cases hclosing : Quoted.closing c r with
      | none =>
          simp only [Rule.read, Quotes.read, hclosing, Except.map] at h
          cases h
          exact .inr ⟨c, rfl⟩
      | some body =>
          simp only [Rule.read, Quotes.read, hclosing] at h
          cases rule with
          | verbatim => cases h
          | naming => dsimp only at h; split at h <;> cases h
  | numbers rule => cases h
  | symbols known => cases h
  | runs rule => cases h
  | prose => cases h

-- ============================================================== lexemes

namespace Lexer

variable {lx : Lexer} {c : Char} {r : List Char} {l : Lexeme}

/-- The rules that may cut a lexeme at a character: the one its role has,
and that for symbols. -/
def Serves (lx : Lexer) (c : Char) (rule : Rule) : Prop :=
  (∃ role, lx.roles.find? c = some role ∧ lx.rule? role = some rule)
    ∨ rule = .symbols (lx.symbols.getD .leaf)

theorem lexeme_of_rule {role : Role} {rule : Rule} (hrole : lx.roles.find? c = some role)
    (hrule : lx.rule? role = some rule) :
    lx.lexeme c r = ((rule.read (c :: r)).map (·.getD (lx.symbol (c :: r)))).map (orUnknown c) := by
  unfold lexeme
  rw [hrole, Option.bind_some, readAs, hrule]
  rfl

theorem lexeme_of_found {role : Role} {rule : Rule} (hrole : lx.roles.find? c = some role)
    (hrule : lx.rule? role = some rule) (hread : rule.read (c :: r) = .ok (some l))
    (hl : l.source ≠ []) : lx.lexeme c r = .ok l := by
  have hknown : orUnknown c l = l := if_neg hl
  rw [lexeme_of_rule hrole hrule, hread]
  exact congrArg Except.ok hknown

/-- A symbol, where the rule of a role hands over. -/
theorem lexeme_of_symbol {role : Role} {rule : Rule} (hrole : lx.roles.find? c = some role)
    (hrule : lx.rule? role = some rule) (hread : rule.read (c :: r) = .ok none)
    (hl : (lx.symbol (c :: r)).source ≠ []) : lx.lexeme c r = .ok (lx.symbol (c :: r)) := by
  have hknown : orUnknown c (lx.symbol (c :: r)) = lx.symbol (c :: r) := if_neg hl
  rw [lexeme_of_rule hrole hrule, hread]
  exact congrArg Except.ok hknown

theorem lexeme_of_none (h : ((lx.roles.find? c).bind lx.rule?) = none) :
    lx.lexeme c r = .ok (.plain .unknown [c]) := by
  have hread : ((lx.roles.find? c).bind fun role => lx.readAs role (c :: r)) = none := by
    cases hrole : lx.roles.find? c with
    | none => rfl
    | some role =>
        rw [hrole, Option.bind_some] at h
        rw [Option.bind_some, readAs, h]
        rfl
  unfold lexeme
  rw [hread]

/-- Reading at a character is up to the rule of its role, if there is
one. -/
theorem lexeme_cases (lx : Lexer) (c : Char) (r : List Char) :
    lx.lexeme c r = .ok (.plain .unknown [c])
      ∨ ∃ role rule, lx.roles.find? c = some role ∧ lx.rule? role = some rule
        ∧ lx.lexeme c r
          = ((rule.read (c :: r)).map (·.getD (lx.symbol (c :: r)))).map (orUnknown c) := by
  cases hrole : lx.roles.find? c with
  | none => exact .inl (lexeme_of_none (by rw [hrole]; rfl))
  | some role =>
      cases hrule : lx.rule? role with
      | none => exact .inl (lexeme_of_none (by rw [hrole, Option.bind_some, hrule]))
      | some rule => exact .inr ⟨role, rule, rfl, hrule, lexeme_of_rule hrole hrule⟩

/-- A lexeme is cut from the front of the text by a rule, or it is one
character that no rule reads. -/
theorem cut_of_lexeme (h : lx.lexeme c r = .ok l) :
    l = .plain .unknown [c] ∨ ∃ rule, lx.Serves c rule ∧ rule.Cuts (c :: r) l := by
  rcases lexeme_cases lx c r with hunknown | ⟨role, rule, hrole, hrule, hlexeme⟩
  · rw [hunknown] at h
    cases h
    exact .inl rfl
  · rw [hlexeme] at h
    cases hread : rule.read (c :: r) with
    | error cause => rw [hread] at h; cases h
    | ok found =>
        rw [hread] at h
        have hcut : ∃ rule, lx.Serves c rule
            ∧ rule.Cuts (c :: r) (found.getD (lx.symbol (c :: r))) := by
          cases found with
          | some found => exact ⟨rule, .inl ⟨role, hrole, hrule⟩, Rule.cuts_of_read hread⟩
          | none => exact ⟨_, .inr rfl, Rule.cuts_of_symbols _ _⟩
        have hl : orUnknown c (found.getD (lx.symbol (c :: r))) = l := Except.ok.inj h
        unfold orUnknown at hl
        split at hl
        · exact .inl hl.symm
        · rw [hl] at hcut
          exact .inr hcut

/-- What was taken is in front, whatever rule took it. -/
theorem isPrefix_source (h : lx.lexeme c r = .ok l) : l.source <+: c :: r := by
  rcases cut_of_lexeme h with rfl | ⟨rule, -, hcut⟩
  · exact ⟨r, rfl⟩
  · exact hcut.front

/-- A text cannot be read only for want of an end. -/
theorem unterminated_of_lexeme {cause : Cause} (h : lx.lexeme c r = .error cause) :
    cause.Unterminated := by
  rcases lexeme_cases lx c r with hunknown | ⟨role, rule, -, -, hlexeme⟩
  · rw [hunknown] at h
    cases h
  · rw [hlexeme] at h
    cases hread : rule.read (c :: r) with
    | error cause' =>
        rw [hread] at h
        cases h
        exact Rule.unterminated_of_read hread
    | ok found => rw [hread] at h; cases h

-- =============================================================== tokens

variable {cs rest : List Char} (front : List Char)

@[simp] theorem kind_token (l : Lexeme) (p : Place) : (Lexeme.token l p).kind = l.kind := rfl

@[simp] theorem place_finish (t : Token) : (lx.finish t).place = t.place := by
  unfold finish
  split
  case h_4 => split <;> rfl
  case h_5 => rfl
  all_goals split <;> rfl

theorem finish_eq_of_kind {t : Token}
    (h : t.kind ≠ .integer ∧ t.kind ≠ .float ∧ t.kind ≠ .hexDecimal ∧ t.kind ≠ .quoted) :
    lx.finish t = t := by
  unfold finish
  split <;> simp_all

theorem read_of_lexeme (h : lx.lexeme c r = .ok l) (hrest : c :: r = l.source ++ rest) :
    lx.read (.behind front (c :: r))
      = (.ok (Lexeme.token l (.after front)), .behind (front ++ l.source) rest) := by
  unfold read
  rw [Cursor.rest_behind, Cursor.place_behind]
  dsimp only
  rw [h, hrest]
  dsimp only
  rw [Cursor.skip_behind]

theorem read_of_error {cause : Cause} (h : lx.lexeme c r = .error cause) :
    (lx.read (.behind front (c :: r))).1 = .error (.atPlace cause (.after front)) := by
  unfold read
  rw [Cursor.rest_behind]
  dsimp only
  rw [h, Cursor.place_behind]

theorem read_end :
    lx.read (.behind front []) = (.ok (endToken (.after front)), .behind front []) := by
  unfold read
  rw [Cursor.rest_behind, Cursor.place_behind]

/-- What the next token is, without the measure that bounds the search. -/
theorem next_eq (lx : Lexer) (cur : Cursor) :
    lx.next cur =
      match lx.read cur with
      | (.error fault, after) => (.error fault, after)
      | (.ok t, after) =>
        if t.kind = .eof then (.ok (if lx.options.skipEof then none else some t), after)
        else if lx.options.skips t.kind then lx.next after
        else (.ok (some (lx.finish t)), after) := by
  rw [next]
  split
  · next hread => rw [hread]
  · next hread => simp only [hread, dite_eq_ite]

theorem next_of_kept (h : lx.lexeme c r = .ok l) (hrest : c :: r = l.source ++ rest)
    (heof : l.kind ≠ .eof) (hkept : lx.options.skips l.kind = false) :
    lx.next (.behind front (c :: r))
      = (.ok (some (lx.finish (Lexeme.token l (.after front)))),
          .behind (front ++ l.source) rest) := by
  rw [next_eq, read_of_lexeme front h hrest]
  dsimp only
  rw [kind_token, if_neg heof, hkept, if_neg Bool.false_ne_true]

/-- A lexeme that is dropped makes no difference to the next token. -/
theorem next_of_skipped (h : lx.lexeme c r = .ok l) (hrest : c :: r = l.source ++ rest)
    (hskip : lx.options.skips l.kind = true) :
    lx.next (.behind front (c :: r)) = lx.next (.behind (front ++ l.source) rest) := by
  rw [next_eq, read_of_lexeme front h hrest]
  dsimp only
  rw [kind_token, if_neg (ne_eof_of_skips hskip), if_pos hskip]

theorem next_of_error {cause : Cause} (h : lx.lexeme c r = .error cause) :
    (lx.next (.behind front (c :: r))).1 = .error (.atPlace cause (.after front)) := by
  have herror := read_of_error front h
  rw [next_eq]
  cases hread : lx.read (.behind front (c :: r)) with
  | mk result after =>
      rw [hread] at herror
      dsimp only at herror
      subst herror
      rfl

theorem next_end :
    lx.next (.behind front [])
      = (.ok (if lx.options.skipEof then none else some (endToken (.after front))),
          .behind front []) := by
  rw [next_eq, read_end]
  rfl

-- ============================================================ all tokens

/-- The tokens from a cursor on, blanks not yet joined. -/
def collect (lx : Lexer) (cur : Cursor) : Except Fault (List Token) :=
  match _h : lx.next cur with
  | (.error fault, _) => .error fault
  | (.ok none, _) => .ok []
  | (.ok (some t), after) =>
    if _ht : t.kind = .eof then .ok [t] else (lx.collect after).map (t :: ·)
termination_by cur.rest.length
decreasing_by exact next_shorter _h _ht

/-- Every run of blanks joined into its first token. -/
def joinBlanks : List Token → List Token
  | [] => []
  | t :: ts =>
    match joinBlanks ts with
    | u :: us =>
      if t.kind = .whitespace ∧ u.kind = .whitespace then { t with text := t.text ++ u.text } :: us
      else t :: u :: us
    | [] => [t]

/-- The tokens from a cursor on, without the measure that bounds them. -/
theorem collect_eq (lx : Lexer) (cur : Cursor) :
    lx.collect cur =
      match lx.next cur with
      | (.error fault, _) => .error fault
      | (.ok none, _) => .ok []
      | (.ok (some t), after) =>
        if t.kind = .eof then .ok [t] else (lx.collect after).map (t :: ·) := by
  rw [collect]
  split
  · next hnext => rw [hnext]
  · next hnext => rw [hnext]
  · next hnext => simp only [hnext, dite_eq_ite]

/-- The tokens from a cursor on are the next token and those behind it. -/
theorem collect_of_next {cur after : Cursor} {t : Token}
    (h : lx.next cur = (.ok (some t), after)) (ht : t.kind ≠ .eof) :
    lx.collect cur = (lx.collect after).map (t :: ·) := by
  rw [collect_eq, h]
  exact if_neg ht

theorem collect_congr {cur cur' : Cursor} (h : lx.next cur = lx.next cur') :
    lx.collect cur = lx.collect cur' := by
  rw [collect_eq, collect_eq, h]

theorem collect_of_error {cur : Cursor} {fault : Fault} (h : (lx.next cur).1 = .error fault) :
    lx.collect cur = .error fault := by
  rw [collect_eq]
  cases hnext : lx.next cur with
  | mk result after =>
      rw [hnext] at h
      dsimp only at h
      subst h
      rfl

theorem collect_end :
    lx.collect (.behind front [])
      = .ok (if lx.options.skipEof then [] else [endToken (.after front)]) := by
  rw [collect_eq, next_end]
  cases lx.options.skipEof with
  | true => rfl
  | false => rfl

-- =============================================================== joining

/-- The first token keeps its kind and place, whatever is joined to it. -/
theorem joinBlanks_cons (t : Token) (ts : List Token) :
    ∃ text us, joinBlanks (t :: ts) = { t with text := text } :: us := by
  rw [joinBlanks]
  split
  · split
    · exact ⟨_, _, rfl⟩
    · exact ⟨_, _, rfl⟩
  · exact ⟨_, _, rfl⟩

/-- A token that is no blank, or stands before none, is joined to nothing. -/
theorem joinBlanks_apart {u t : Token} (h : ¬(t.kind = .whitespace ∧ u.kind = .whitespace))
    (ts : List Token) : joinBlanks (u :: t :: ts) = u :: joinBlanks (t :: ts) := by
  obtain ⟨text, us, hjoin⟩ := joinBlanks_cons t ts
  rw [joinBlanks, hjoin]
  exact if_neg fun hblank => h hblank.symm

/-- A blank behind a blank may be joined to it before any other is. -/
theorem joinBlanks_together {u t : Token} (h : t.kind = .whitespace ∧ u.kind = .whitespace)
    (ts : List Token) :
    joinBlanks (u :: t :: ts) = joinBlanks ({ u with text := u.text ++ t.text } :: ts) := by
  obtain ⟨ht, hu⟩ := h
  rw [joinBlanks, joinBlanks, joinBlanks]
  cases joinBlanks ts with
  | nil => simp [ht, hu]
  | cons v vs =>
      by_cases hv : v.kind = .whitespace
      · simp [ht, hu, hv, String.append_assoc]
      · simp [ht, hu, hv]

/-- Adding tokens one by one joins what `joinBlanks` joins. -/
theorem reverse_foldl_push (hmerge : lx.options.mergeWhitespaces = true) (u : Token)
    (us ts : List Token) :
    (ts.foldl lx.push (u :: us)).reverse = us.reverse ++ joinBlanks (u :: ts) := by
  induction ts generalizing u us with
  | nil => exact List.reverse_cons
  | cons t ts ih =>
      rw [List.foldl_cons, push, hmerge]
      by_cases h : t.kind = .whitespace ∧ u.kind = .whitespace
      · rw [if_pos ⟨rfl, h⟩, ih, joinBlanks_together h]
      · rw [if_neg fun hboth => h hboth.2, ih, joinBlanks_apart h, List.reverse_cons,
          List.append_assoc]
        rfl

/-- Without joining, tokens are added as they are. -/
theorem reverse_foldl_push_apart (hmerge : lx.options.mergeWhitespaces = false)
    (before ts : List Token) :
    (ts.foldl lx.push before).reverse = before.reverse ++ ts := by
  have hpush : ∀ before t, lx.push before t = t :: before := by
    intro before t
    unfold push
    split
    · rw [hmerge]
      exact if_neg fun h => Bool.false_ne_true h.1
    · rfl
  induction ts generalizing before with
  | nil => exact (List.append_nil _).symm
  | cons t ts ih => rw [List.foldl_cons, hpush, ih, List.reverse_cons, List.append_assoc]; rfl

/-- Whatever was read before, the tokens from a cursor on are added behind
it. -/
theorem collectOnto_eq (lx : Lexer) (before : List Token) (cur : Cursor) :
    lx.collectOnto before cur
      = (lx.collect cur).map fun ts => (ts.foldl lx.push before).reverse := by
  fun_induction collectOnto lx before cur with
  | case1 before cur fault after hnext => rw [collect_eq, hnext]; rfl
  | case2 before cur after hnext => rw [collect_eq, hnext]; rfl
  | case3 before cur t after hnext ht =>
      rw [collect_eq, hnext]
      dsimp only
      rw [if_pos ht]
      rfl
  | case4 before cur t after hnext ht ih =>
      rw [collect_of_next hnext ht, ih]
      cases lx.collect after <;> rfl

/-- The tokens of a text are those that are collected, with the blanks joined
afterwards if they are to be. -/
theorem tokens_eq (lx : Lexer) (text : String) :
    lx.tokens text
      = (lx.collect (.start text)).map fun ts =>
          if lx.options.mergeWhitespaces then joinBlanks ts else ts := by
  unfold tokens
  rw [collectOnto_eq]
  congr 1
  funext ts
  cases hmerge : lx.options.mergeWhitespaces with
  | false => exact reverse_foldl_push_apart hmerge [] ts
  | true =>
      cases ts with
      | nil => rfl
      | cons t ts => exact reverse_foldl_push hmerge t [] ts

end Lexer

end Formula
