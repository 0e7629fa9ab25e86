/-
That the lexer of expressions finds the lexemes a text is made of. Main
statement: if separators stand between lexemes, before them and behind them,
the tokens of the text are those of the lexemes, each at the place where its
lexeme begins (`tokens_spaced`).

Whatever stands between lexemes makes no difference to the token behind it
(`Gap.passed`): blanks and comments are dropped, and the blanks in front of
one another may be dropped together or one by one. A separator is such a
gap that begins and ends with a blank. The first blank ends the lexeme before
the separator; nothing rests on the last.
-/
import Formula.Proofs.Expr.Lexemes

namespace Formula

namespace Expr

-- ================================================================== gaps

/-- What may stand between lexemes: blanks, comments to the end of a line
with the end of the line, and comments that are closed. -/
inductive Gap : List Char → Prop where
  | nil : Gap []
  | blank {b : Char} {cs : List Char} (blank : b ≤ ' ') (more : Gap cs) : Gap (b :: cs)
  | line {body cs : List Char} {e : Char} (inside : ∀ c ∈ body, c ≠ '\n' ∧ c ≠ '\r')
      (stop : e = '\n' ∨ e = '\r') (more : Gap (e :: cs)) :
      Gap ('/' :: '/' :: (body ++ e :: cs))
  | block {body cs : List Char} (inside : ¬['*', '/'] <:+: body) (more : Gap cs) :
      Gap ('/' :: '*' :: (body ++ '*' :: '/' :: cs))

section

variable {rest : List Char} {l : Lexeme} {c : Char}

/-- What it is for characters to make no difference to the token behind
them. -/
def Passed (cs rest : List Char) : Prop :=
  ∀ front, Lexer.expression.next (.behind front (cs ++ rest))
    = Lexer.expression.next (.behind (front ++ cs) rest)

theorem Passed.append {cs ds : List Char} (hcs : Passed cs (ds ++ rest)) (hds : Passed ds rest) :
    Passed (cs ++ ds) rest := by
  intro front
  rw [List.append_assoc, hcs, hds, List.append_assoc]

/-- What a rule finds is passed if its kind is dropped. -/
theorem passed_of_read {role : Lexer.Role} {rule : Rule} {cs : List Char}
    (hrole : Lexer.expression.roles.find? c = some role)
    (hrule : Lexer.expression.rule? role = some rule)
    (hread : rule.read (c :: (cs ++ rest)) = .ok (some l)) (hl : l.source = c :: cs)
    (hskip : Lexer.expression.options.skips l.kind = true) : Passed (c :: cs) rest := by
  have hlexeme := Lexer.lexeme_of_found hrole hrule hread (by rw [hl]; exact List.cons_ne_nil _ _)
  intro front
  rw [List.cons_append, Lexer.next_of_skipped front hlexeme (by rw [hl]; rfl) hskip, hl]

theorem contains_of_blank {b : Char} (hb : b ≤ ' ') : Lexer.controlBlanks.contains b = true := by
  rw [Lexer.contains_controlBlanks]
  exact decide_eq_true hb

/-- A run of blanks is dropped whole. -/
theorem passed_run {b : Char} (hb : b ≤ ' ') (r : List Char) :
    Passed (b :: r.takeWhile Lexer.controlBlanks.contains)
      (r.dropWhile Lexer.controlBlanks.contains) := by
  refine passed_of_read (l := .plain .whitespace _) (Lexer.find?_expression_blank hb) rfl ?_ rfl rfl
  rw [List.takeWhile_append_dropWhile]
  show Except.ok (some (Lexeme.plain .whitespace
    ((b :: r).takeWhile Lexer.controlBlanks.contains))) = _
  rw [List.takeWhile_cons_of_pos (contains_of_blank hb)]

/-- Whether blanks are dropped one by one or in runs comes to the same. -/
theorem passed_blank {b : Char} (hb : b ≤ ' ') (rest : List Char) : Passed [b] rest := by
  intro front
  have hrun := passed_run hb rest front
  rw [List.cons_append, List.takeWhile_append_dropWhile] at hrun
  rw [List.singleton_append, hrun]
  -- dropping `b` alone leaves the rest of its run, which is dropped next
  cases rest with
  | nil => rfl
  | cons d r =>
      by_cases hd : Lexer.controlBlanks.contains d = true
      · have hd' : d ≤ ' ' := by
          rw [Lexer.contains_controlBlanks] at hd
          exact of_decide_eq_true hd
        have hmore := passed_run hd' r (front ++ [b])
        rw [List.cons_append, List.takeWhile_append_dropWhile] at hmore
        rw [hmore, List.takeWhile_cons_of_pos hd, List.dropWhile_cons_of_pos hd,
          List.append_assoc]
        rfl
      · rw [List.takeWhile_cons_of_neg hd, List.dropWhile_cons_of_neg hd]

theorem passed_line {body : List Char} {e : Char} (inside : ∀ c ∈ body, c ≠ '\n' ∧ c ≠ '\r')
    (stop : e = '\n' ∨ e = '\r') (r : List Char) :
    Passed ('/' :: '/' :: body) (e :: r) := by
  have hline : Rule.lineText ('/' :: '/' :: body ++ e :: r) = '/' :: '/' :: body := by
    refine Rule.takeWhile_append_stop ?_ ?_
    · intro c hc
      rcases List.mem_cons.1 hc with rfl | hc
      · rfl
      rcases List.mem_cons.1 hc with rfl | hc
      · rfl
      · simp [inside c hc]
    · intro c hc
      cases hc
      rcases stop with rfl | rfl <;> rfl
  refine passed_of_read (l := .plain .comment ('/' :: '/' :: body)) (by rw [Lexer.find?_expression]; rfl)
    rfl ?_ rfl rfl
  show Except.ok (some (Lexeme.plain .comment (Rule.lineText ('/' :: '/' :: body ++ e :: r)))) = _
  rw [hline]

/-- A comment ends where it is closed first. -/
theorem blockText_append {body : List Char} (inside : ¬['*', '/'] <:+: body) (rest : List Char) :
    Rule.blockText (body ++ '*' :: '/' :: rest) = some (body ++ ['*', '/']) := by
  induction body with
  | nil => rfl
  | cons c body ih =>
      have hmore : ¬['*', '/'] <:+: body := fun h => inside (List.infix_cons h)
      obtain ⟨d, r, hbody⟩ : ∃ d r, body ++ '*' :: '/' :: rest = d :: r :=
        List.exists_cons_of_ne_nil (by simp)
      have hclosed : ¬(c = '*' ∧ d = '/') := by
        rintro ⟨rfl, rfl⟩
        cases body with
        | nil => cases hbody
        | cons d' body' =>
            cases hbody
            exact inside ⟨[], body', rfl⟩
      rw [List.cons_append, hbody, Rule.blockText, if_neg hclosed, ← hbody, ih hmore]
      rfl

theorem passed_block {body : List Char} (inside : ¬['*', '/'] <:+: body) (rest : List Char) :
    Passed ('/' :: '*' :: (body ++ ['*', '/'])) rest := by
  refine passed_of_read (l := .plain .comment ('/' :: '*' :: (body ++ ['*', '/'])))
    (by rw [Lexer.find?_expression]; rfl) rfl ?_ rfl rfl
  have hblock : Rule.blockText (body ++ ['*', '/'] ++ rest) = some (body ++ ['*', '/']) := by
    rw [List.append_assoc]
    exact blockText_append inside rest
  have hread : Rule.Comments.read .slashed ('/' :: '*' :: (body ++ ['*', '/'] ++ rest))
      = .ok (some (.plain .comment ('/' :: '*' :: (body ++ ['*', '/'])))) := by
    simp only [Rule.Comments.read, hblock]
  exact hread

/-- A gap makes no difference to the token behind it. -/
theorem Gap.passed {gap : List Char} (h : Gap gap) (rest : List Char) : Passed gap rest := by
  induction h with
  | nil =>
      intro front
      rw [List.append_nil, List.nil_append]
  | blank blank more ih => exact (passed_blank blank _).append ih
  | @line body cs e inside stop more ih => exact (passed_line inside stop (cs ++ rest)).append ih
  | @block body cs inside more ih =>
      have hclosed := (passed_block inside (cs ++ rest)).append ih
      simpa using hclosed

end

-- ============================================================= separators

/-- What stands between lexemes: a gap with a blank at either end. -/
structure Separates (cs : List Char) : Prop where
  gap : Gap cs
  first : ∃ b, cs.head? = some b ∧ b ≤ ' '
  last : ∃ b, cs.getLast? = some b ∧ b ≤ ' '

/-- A lexeme ends where a separator begins. -/
theorem Separates.stops {cs : List Char} (h : Separates cs) (rest : List Char) :
    Stops (cs ++ rest) := by
  obtain ⟨b, hhead, hb⟩ := h.first
  intro c hc
  rw [List.head?_append, hhead] at hc
  cases hc
  exact hb

-- ============================================================ spaced texts

/-- Lexemes, each with the separator behind it, as characters. -/
def spaced : List (Lexeme × List Char) → List Char
  | [] => []
  | (l, separator) :: ls => l.source ++ (separator ++ spaced ls)

/-- The tokens of lexemes that stand behind `front`, each with the separator
behind it. -/
def placed (front : List Char) : List (Lexeme × List Char) → List Token
  | [] => []
  | (l, separator) :: ls =>
    Lexer.Lexeme.token l (.after front) :: placed (front ++ l.source ++ separator) ls

theorem Lexical.kind_ne_eof {l : Lexeme} (h : Lexical l) : l.kind ≠ .eof := by
  cases h with
  | number =>
      show (if _ then Token.Kind.integer else .float) ≠ .eof
      split <;> exact nofun
  | _ => exact nofun

/-- What it is for lexemes with gaps behind them to be read as they are:
each is read to its end, whatever follows it, and no more. -/
def Legible : List (Lexeme × List Char) → Prop
  | [] => True
  | (l, gap) :: ls =>
    l.kind ≠ .eof ∧ Reads l (gap ++ spaced ls) ∧ Gap gap ∧ Legible ls

/-- Lexemes are read one by one, wherever the first of them stands. -/
theorem collect_legible {ls : List (Lexeme × List Char)} (hls : Legible ls) (front : List Char) :
    Lexer.expression.collect (.behind front (spaced ls)) = .ok (placed front ls) := by
  induction ls generalizing front with
  | nil => exact Lexer.collect_end front
  | cons entry ls ih =>
      obtain ⟨l, gap⟩ := entry
      obtain ⟨hkind, hread, hgap, hmore⟩ := hls
      have hpassed := hgap.passed (spaced ls) (front ++ l.source)
      rw [spaced, Lexer.collect_of_next (hread front) hkind, Lexer.collect_congr hpassed,
        ih hmore]
      rfl

/-- Separators make any lexemes legible. -/
theorem legible_of_separates {ls : List (Lexeme × List Char)}
    (hls : ∀ l ∈ ls, Lexical l.1 ∧ Separates l.2) : Legible ls := by
  induction ls with
  | nil => trivial
  | cons entry ls ih =>
      obtain ⟨hl, hseparator⟩ := hls _ (List.mem_cons_self ..)
      exact ⟨hl.kind_ne_eof, hl.reads (hseparator.stops (spaced ls)), hseparator.gap,
        ih fun l h => hls l (List.mem_cons_of_mem _ h)⟩

theorem collect_spaced {ls : List (Lexeme × List Char)}
    (hls : ∀ l ∈ ls, Lexical l.1 ∧ Separates l.2) (front : List Char) :
    Lexer.expression.collect (.behind front (spaced ls)) = .ok (placed front ls) :=
  collect_legible (legible_of_separates hls) front

/-- The tokens of a text of lexemes that are legible are those of the
lexemes. -/
theorem tokens_legible {ls : List (Lexeme × List Char)} (hls : Legible ls) :
    Lexer.expression.tokens (String.ofList (spaced ls)) = .ok (placed [] ls) := by
  rw [Lexer.tokens_eq, Cursor.start_eq_behind, String.toList_ofList, collect_legible hls]
  rfl

/-- The tokens of a text of lexemes with separators between them, before
them and behind them are those of the lexemes. -/
theorem tokens_spaced {separator : List Char} {ls : List (Lexeme × List Char)}
    (hseparator : Separates separator) (hls : ∀ l ∈ ls, Lexical l.1 ∧ Separates l.2) :
    Lexer.expression.tokens (String.ofList (separator ++ spaced ls))
      = .ok (placed separator ls) := by
  have hgap := hseparator.gap.passed (spaced ls) []
  rw [Lexer.tokens_eq, Cursor.start_eq_behind, String.toList_ofList, Lexer.collect_congr hgap,
    collect_spaced hls]
  rfl

/-- A comment that looks closed too early, an exponent, and a point that
begins no number. -/
theorem tokens_spaced_mixed :
    Lexer.expression.tokens " /*/*/\n12e5 //'\n . 'it''s'\t"
      = .ok [⟨.float, "12e5", ⟨2, 1⟩⟩, ⟨.symbol, ".", ⟨3, 2⟩⟩, ⟨.quoted, "it's", ⟨3, 4⟩⟩] := by
  have hblank (c : Char) (hc : c ≤ ' ') : Separates [c] :=
    ⟨.blank hc .nil, ⟨c, rfl, hc⟩, ⟨c, rfl, hc⟩⟩
  have hblock : Gap ('/' :: '*' :: (['/'] ++ '*' :: '/' :: ['\n'])) :=
    .block (by decide) (.blank (by decide) .nil)
  have hline : Gap ('/' :: '/' :: (['\''] ++ '\n' :: [' '])) :=
    .line (by simp) (.inl rfl) (.blank (by decide) (.blank (by decide) .nil))
  have hopening : Separates [' ', '/', '*', '/', '*', '/', '\n'] :=
    ⟨.blank (by decide) hblock, ⟨_, rfl, by decide⟩, ⟨_, rfl, by decide⟩⟩
  have hcomment : Separates [' ', '/', '/', '\'', '\n', ' '] :=
    ⟨.blank (by decide) hline, ⟨_, rfl, by decide⟩, ⟨_, rfl, by decide⟩⟩
  have hexponent : IsExponent ['e', '5'] :=
    .inr ⟨_, [], ['5'], .inl rfl, .inl rfl, by simp, by simp [isDigit], rfl⟩
  have hnumber : Lexical (.plain .float (['1', '2'] ++ [] ++ ['e', '5'])) :=
    .number (by simp [isDigit]) (.inl rfl) hexponent (.inl (by simp))
  have hpoint : Lexical (.plain .symbol ['.']) :=
    .mark ⟨by decide, by decide, by decide, by decide, by decide, by decide⟩
  have hquoted : Lexical ⟨.quoted, _, ['i', 't', '\'', 's']⟩ := .quoted _
  have htokens := @tokens_spaced _ [(_, _), (_, _), (_, _)] hopening (by
    simp only [List.forall_mem_cons]
    exact ⟨⟨hnumber, hcomment⟩, ⟨hpoint, hblank ' ' (by decide)⟩,
      ⟨hquoted, hblank '\t' (by decide)⟩, by simp⟩)
  exact htokens

end Expr

end Formula
