/-
What the lexer finds inside tags and in front of them. Main statements: inside
a tag, what comes behind the blanks is a word, a symbol or an unknown
character (`next_tag`), and words, brackets and marks are read to their end
(`next_word`, `next_braces`, `next_mark`); outside tags, the text up to the
next two opening braces is read whole (`proseText_append`).

No rule of this lexer can fail, so its tokens are given as equations.
-/
import Formula.Proofs.Lex.Reading
import Formula.Proofs.Lex.Roles

namespace Formula

namespace Template

open Lexer (isTagLetter isTagLetter_of_blank)

variable {c : Char} {cs r rest : List Char}

-- ============================================================== lexemes

theorem lexeme_letter (hc : isTagLetter c = true) (r : List Char) :
    tagLexer.lexeme c r = .ok (.plain .word (c :: r.takeWhile isTagLetter)) := by
  have hrole : tagLexer.roles.find? c = some .word := by
    rw [Lexer.find?_tagLexer, if_pos hc]
  have hletters : (CharClass.ofRanges tagLetters).contains = isTagLetter := by
    funext d
    rw [CharClass.contains_ofRanges, Lexer.covers_tagLetters]
  have hread : Rule.read (.runs (.word (.ofRanges tagLetters))) (c :: r)
      = .ok (some (.plain .word (c :: r.takeWhile isTagLetter))) := by
    rw [← hletters]
    rfl
  exact Lexer.lexeme_of_found hrole rfl hread (List.cons_ne_nil _ _)

theorem lexeme_blank (hc : c ≤ ' ') (r : List Char) :
    tagLexer.lexeme c r = .ok (.plain .whitespace (c :: r.takeWhile (· ≤ ' '))) := by
  have hrole : tagLexer.roles.find? c = some .whitespace := by
    rw [Lexer.find?_tagLexer, isTagLetter_of_blank hc, if_neg Bool.false_ne_true, if_pos hc]
  have hblanks : Lexer.controlBlanks.contains = fun d => decide (d ≤ ' ') := by
    funext d
    exact Lexer.contains_controlBlanks d
  have hread : Rule.read (.runs (.blanks Lexer.controlBlanks)) (c :: r)
      = .ok (some (.plain .whitespace (c :: r.takeWhile (· ≤ ' ')))) := by
    show Except.ok (some (Lexeme.plain .whitespace
      ((c :: r).takeWhile Lexer.controlBlanks.contains))) = _
    rw [hblanks, List.takeWhile_cons, if_pos (decide_eq_true hc)]
  exact Lexer.lexeme_of_found hrole rfl hread (List.cons_ne_nil _ _)

theorem symbols_tag :
    tagLexer.symbols
      = some (.branch '\x7b' none (.branch '\x7b' (some .symbol)
          (.branch '\x7b' (some .symbol) .leaf .leaf) .leaf)
        (.branch '\x7d' none (.branch '\x7d' (some .symbol)
          (.branch '\x7d' (some .symbol) .leaf .leaf) .leaf) .leaf)) := rfl

/-- Braces are read up to three at a time. -/
theorem symbol_brace (hc : c = '\x7b' ∨ c = '\x7d') (r : List Char) :
    tagLexer.symbol (c :: r) = .plain .symbol (c :: (r.takeWhile (· = c)).take 2) := by
  unfold Lexer.symbol Rule.readSymbol
  rw [symbols_tag]
  -- the tree is three characters deep, so two behind the first decide
  match r with
  | [] => rcases hc with rfl | rfl <;> rfl
  | [d] =>
      by_cases hd : d = c
      · subst hd
        rcases hc with rfl | rfl <;> rfl
      · rcases hc with rfl | rfl <;> simp [Symbols.longest?, hd]
  | d :: e :: r =>
      by_cases hd : d = c
      · subst hd
        by_cases he : e = d
        · subst he
          rcases hc with rfl | rfl <;> simp [Symbols.longest?]
        · rcases hc with rfl | rfl <;> simp [Symbols.longest?, he]
      · rcases hc with rfl | rfl <;> simp [Symbols.longest?, hd]

theorem symbol_mark (hopening : c ≠ '\x7b') (hclosing : c ≠ '\x7d') (r : List Char) :
    tagLexer.symbol (c :: r) = .plain .symbol [c] := by
  unfold Lexer.symbol Rule.readSymbol
  rw [symbols_tag]
  simp [Symbols.longest?, hopening, hclosing]

/-- What is no letter and no blank is a symbol, or unknown. -/
theorem lexeme_other (hletter : isTagLetter c = false) (hblank : ¬c ≤ ' ') (r : List Char) :
    tagLexer.lexeme c r = .ok (if c ≤ '\ufffe' then tagLexer.symbol (c :: r)
      else .plain .unknown [c]) := by
  have hrole : tagLexer.roles.find? c = if c ≤ '\ufffe' then some .symbol else none := by
    rw [Lexer.find?_tagLexer, hletter, if_neg Bool.false_ne_true, if_neg hblank]
  by_cases hc : c ≤ '\ufffe'
  · rw [if_pos hc] at hrole ⊢
    exact Lexer.lexeme_of_found hrole rfl rfl (Rule.source_readSymbol_ne_nil _ _ _)
  · rw [if_neg hc] at hrole ⊢
    exact Lexer.lexeme_of_none (by rw [hrole]; rfl)

-- =============================================================== tokens

/-- The lexemes that the lexer of tags does not drop. -/
structure TagLexeme (l : Lexeme) : Prop where
  kind : l.kind = .word ∨ l.kind = .symbol ∨ l.kind = .unknown
  text : l.text = l.source
  filled : l.source ≠ []

/-- Reading in a tag never fails, and it drops nothing but blanks. -/
theorem tagLexeme_of_not_blank (hblank : ¬c ≤ ' ') (r : List Char) :
    ∃ l, tagLexer.lexeme c r = .ok l ∧ TagLexeme l := by
  cases hletter : isTagLetter c with
  | true => exact ⟨_, lexeme_letter hletter r, .inl rfl, rfl, List.cons_ne_nil _ _⟩
  | false =>
      refine ⟨_, lexeme_other hletter hblank r, ?_⟩
      split
      · have hcuts := Rule.cuts_of_symbols (tagLexer.symbols.getD .leaf) (c :: r)
        have hkinds : ∀ k ∈ (Rule.symbols (tagLexer.symbols.getD .leaf)).kinds, k = .symbol := by
          rw [symbols_tag]
          decide
        exact ⟨.inr (.inl (hkinds _ hcuts.kind)), hcuts.text.resolve_right nofun,
          Rule.source_readSymbol_ne_nil _ _ _⟩
      · exact ⟨.inr (.inr rfl), rfl, List.cons_ne_nil _ _⟩

theorem next_of_tagLexeme {l : Lexeme} (h : tagLexer.lexeme c r = .ok l) (hl : TagLexeme l)
    (hrest : c :: r = l.source ++ rest) (front : List Char) :
    tagLexer.next (.behind front (c :: r))
      = (.ok (some (Lexer.Lexeme.token l (.after front))), .behind (front ++ l.source) rest) := by
  have heof : l.kind ≠ .eof := by rcases hl.kind with hk | hk | hk <;> simp [hk]
  have hkept : tagLexer.options.skips l.kind = false := by
    rcases hl.kind with hk | hk | hk <;> simp [hk, Lexer.Options.skips, tagLexer,
      Lexer.Options.none]
  have hfinish : tagLexer.finish (Lexer.Lexeme.token l (.after front))
      = Lexer.Lexeme.token l (.after front) :=
    Lexer.finish_eq_of_kind (by rcases hl.kind with hk | hk | hk <;> simp [hk])
  rw [Lexer.next_of_kept front h hrest heof hkept, hfinish]

/-- Blanks make no difference to the token behind them. -/
theorem next_behind_blanks {gap : List Char} (hgap : ∀ b ∈ gap, b ≤ ' ')
    (hrest : ∀ b, rest.head? = some b → ¬b ≤ ' ') (front : List Char) :
    tagLexer.next (.behind front (gap ++ rest)) = tagLexer.next (.behind (front ++ gap) rest) := by
  cases gap with
  | nil => rw [List.append_nil, List.nil_append]
  | cons b bs =>
      have hrun : (bs ++ rest).takeWhile (· ≤ ' ') = bs :=
        Rule.takeWhile_append_stop
          (fun d hd => decide_eq_true (hgap d (List.mem_cons_of_mem _ hd)))
          (fun d hd => decide_eq_false (hrest d hd))
      have hlexeme := lexeme_blank (hgap b (List.mem_cons_self ..)) (bs ++ rest)
      rw [hrun] at hlexeme
      exact Lexer.next_of_skipped front hlexeme rfl rfl

/-- Two braces of one kind are a bracket where no third follows, and three
are one wherever they are. -/
theorem next_braces {n : Nat} (hc : c = '\x7b' ∨ c = '\x7d')
    (hn : n = 2 ∧ rest.head? ≠ some c ∨ n = 3) (front : List Char) :
    tagLexer.next (.behind front (List.replicate n c ++ rest))
      = (.ok (some ⟨.symbol, String.ofList (List.replicate n c), .after front⟩),
          .behind (front ++ List.replicate n c) rest) := by
  have hletter : isTagLetter c = false := by rcases hc with rfl | rfl <;> decide
  have hblank : ¬c ≤ ' ' := by rcases hc with rfl | rfl <;> decide
  have hlast : c ≤ '\ufffe' := by rcases hc with rfl | rfl <;> decide
  have hlexeme (r : List Char) : tagLexer.lexeme c r
      = .ok (.plain .symbol (c :: (r.takeWhile (· = c)).take 2)) := by
    rw [lexeme_other hletter hblank, if_pos hlast, symbol_brace hc]
  have hlength : n = 2 ∨ n = 3 := hn.imp And.left id
  obtain ⟨m, rfl⟩ : ∃ m, n = m + 1 := ⟨n - 1, by omega⟩
  have htake : ((List.replicate m c ++ rest).takeWhile (· = c)).take 2 = List.replicate m c := by
    rcases hn with ⟨hm, hrest⟩ | hm
    · obtain rfl : m = 1 := by omega
      rw [Rule.takeWhile_append_stop (by simp) (fun d hd => ?_)]
      · rfl
      · refine decide_eq_false ?_
        rintro rfl
        exact hrest hd
    · obtain rfl : m = 2 := by omega
      simp [List.replicate]
  have hread := hlexeme (List.replicate m c ++ rest)
  rw [htake] at hread
  exact next_of_tagLexeme hread ⟨.inr (.inl rfl), rfl, List.cons_ne_nil _ _⟩ rfl front

theorem next_word {word : List Char} (hword : word ≠ []) (hletters : ∀ c ∈ word, isTagLetter c = true)
    (hrest : ∀ c, rest.head? = some c → isTagLetter c = false) (front : List Char) :
    tagLexer.next (.behind front (word ++ rest))
      = (.ok (some ⟨.word, String.ofList word, .after front⟩), .behind (front ++ word) rest) := by
  obtain ⟨c, r, rfl⟩ := List.exists_cons_of_ne_nil hword
  obtain ⟨hc, hr⟩ := List.forall_mem_cons.1 hletters
  have hread := lexeme_letter hc (r ++ rest)
  rw [Rule.takeWhile_append_stop hr hrest] at hread
  exact next_of_tagLexeme hread ⟨.inl rfl, rfl, List.cons_ne_nil _ _⟩ rfl front

theorem next_mark (hc : c = '#' ∨ c = '^' ∨ c = '/') (front rest : List Char) :
    tagLexer.next (.behind front (c :: rest))
      = (.ok (some ⟨.symbol, String.ofList [c], .after front⟩), .behind (front ++ [c]) rest) := by
  have hletter : isTagLetter c = false := by rcases hc with rfl | rfl | rfl <;> decide
  have hblank : ¬c ≤ ' ' := by rcases hc with rfl | rfl | rfl <;> decide
  have hlast : c ≤ '\ufffe' := by rcases hc with rfl | rfl | rfl <;> decide
  have hopening : c ≠ '\x7b' := by rcases hc with rfl | rfl | rfl <;> decide
  have hclosing : c ≠ '\x7d' := by rcases hc with rfl | rfl | rfl <;> decide
  have hread : tagLexer.lexeme c rest = .ok (.plain .symbol [c]) := by
    rw [lexeme_other hletter hblank, if_pos hlast, symbol_mark hopening hclosing]
  exact next_of_tagLexeme hread ⟨.inr (.inl rfl), rfl, List.cons_ne_nil _ _⟩ rfl front

/-- The blanks in front of some characters. -/
theorem exists_gap (cs : List Char) : ∃ gap rest, cs = gap ++ rest ∧ (∀ b ∈ gap, b ≤ ' ')
    ∧ ∀ b, rest.head? = some b → ¬b ≤ ' ' := by
  induction cs with
  | nil => exact ⟨[], [], rfl, by simp, by simp⟩
  | cons c r ih =>
      by_cases hc : c ≤ ' '
      · obtain ⟨gap, rest, rfl, hgap, hrest⟩ := ih
        exact ⟨c :: gap, rest, rfl, List.forall_mem_cons.2 ⟨hc, hgap⟩, hrest⟩
      · refine ⟨[], c :: r, rfl, by simp, ?_⟩
        intro b hb
        cases hb
        exact hc

/-- What it is for the lexer to read a token of the characters behind
`front`, and to have `rest` left. -/
structure ReadsToken (front cs : List Char) (t : Token) (rest : List Char) : Prop where
  filled : t.text.toList ≠ []
  place : t.place = .after front
  split : cs = t.text.toList ++ rest
  next : tagLexer.next (.behind front cs) = (.ok (some t), .behind (front ++ t.text.toList) rest)

/-- Behind the blanks there is the next token of a tag, or nothing. -/
theorem next_tag (front cs : List Char) :
    ∃ gap more, cs = gap ++ more ∧ (∀ b ∈ gap, b ≤ ' ')
      ∧ tagLexer.next (.behind front cs) = tagLexer.next (.behind (front ++ gap) more)
      ∧ (more = [] ∨ ∃ t rest, (t.kind = .word ∨ t.kind = .symbol ∨ t.kind = .unknown)
          ∧ ReadsToken (front ++ gap) more t rest) := by
  obtain ⟨gap, more, rfl, hgap, hmore⟩ := exists_gap cs
  refine ⟨gap, more, rfl, hgap, next_behind_blanks hgap hmore front, ?_⟩
  cases more with
  | nil => exact .inl rfl
  | cons c r =>
      right
      obtain ⟨l, hlexeme, hl⟩ := tagLexeme_of_not_blank (hmore c rfl) r
      obtain ⟨rest, hrest⟩ := Lexer.isPrefix_source hlexeme
      have htext : (Lexer.Lexeme.token l (.after (front ++ gap))).text.toList = l.source := by
        show (String.ofList l.text).toList = l.source
        rw [String.toList_ofList, hl.text]
      have hnext := next_of_tagLexeme hlexeme hl hrest.symm (front ++ gap)
      rw [← htext] at hrest hnext
      exact ⟨_, rest, hl.kind, by rw [htext]; exact hl.filled, rfl, hrest.symm, hnext⟩

-- ================================================================== text

/-- Whether two opening braces come next. -/
def Opens (cs : List Char) : Prop := ['\x7b', '\x7b'] <+: cs

/-- The text up to the next two opening braces is what is in front of them,
and nothing in it looks like them. -/
theorem proseText_split (cs : List Char) :
    ∃ rest, cs = Rule.proseText cs ++ rest ∧ (rest = [] ∨ Opens rest)
      ∧ ¬['\x7b', '\x7b'] <:+: Rule.proseText cs := by
  fun_induction Rule.proseText cs with
  | case1 => exact ⟨[], rfl, .inl rfl, by simp⟩
  | case2 c => exact ⟨[], rfl, .inl rfl, by simp [List.infix_cons_iff]⟩
  | case3 c d r hbraces =>
      obtain ⟨rfl, rfl⟩ := hbraces
      exact ⟨_, rfl, .inr ⟨r, rfl⟩, by simp⟩
  | case4 c d r hbraces ih =>
      obtain ⟨rest, hrest, hopens, hinside⟩ := ih
      refine ⟨rest, congrArg (c :: ·) hrest, hopens, ?_⟩
      rw [List.infix_cons_iff]
      rintro (⟨more, hmore⟩ | h)
      · -- two braces at the front of the text would be `c` and `d`
        injection hmore with hc hmore
        rw [← hmore] at hrest
        injection hrest with hd
        exact hbraces ⟨hc.symm, hd⟩
      · exact hinside h

/-- An opening bracket is read where two opening braces are. -/
theorem next_opening (h : Opens cs) (front : List Char) :
    ∃ t rest, isOpening t = true ∧ ReadsToken front cs t rest := by
  obtain ⟨r, rfl⟩ := h
  obtain ⟨n, r, hcs, hn⟩ : ∃ n rest, ['\x7b', '\x7b'] ++ r = List.replicate n '\x7b' ++ rest
      ∧ (n = 2 ∧ rest.head? ≠ some '\x7b' ∨ n = 3) := by
    by_cases hthird : r.head? = some '\x7b'
    · obtain ⟨r, rfl⟩ := List.head?_eq_some_iff.1 hthird
      exact ⟨3, r, rfl, .inr rfl⟩
    · exact ⟨2, r, rfl, .inl ⟨rfl, hthird⟩⟩
  rw [hcs]
  refine ⟨⟨.symbol, String.ofList (List.replicate n '\x7b'), .after front⟩, r, ?_, ?_, rfl, ?_, ?_⟩
  · rcases hn with ⟨rfl, -⟩ | rfl <;> rfl
  · rw [String.toList_ofList]
    rcases hn with ⟨rfl, -⟩ | rfl <;> exact List.cons_ne_nil _ _
  · rw [String.toList_ofList]
  · rw [String.toList_ofList]
    exact next_braces (.inl rfl) hn front

theorem proseText_of_opens (h : Opens rest) : Rule.proseText rest = [] := by
  obtain ⟨r, rfl⟩ := h
  exact if_pos ⟨rfl, rfl⟩

/-- A text is read whole if nothing in it or at its end looks like a tag. -/
theorem proseText_append {text : List Char} (hwhole : ¬['\x7b', '\x7b'] <:+: text)
    (hrest : rest = [] ∨ Opens rest ∧ text.getLast? ≠ some '\x7b') :
    Rule.proseText (text ++ rest) = text := by
  induction text with
  | nil =>
      rcases hrest with rfl | ⟨hopens, -⟩
      · rfl
      · exact proseText_of_opens hopens
  | cons c text ih =>
      have hmore : ¬['\x7b', '\x7b'] <:+: text := fun h => hwhole (List.infix_cons h)
      cases text with
      | nil =>
          rcases hrest with rfl | ⟨hopens, hlast⟩
          · rfl
          · have hc : c ≠ '\x7b' := fun h => hlast (congrArg some h)
            obtain ⟨r, rfl⟩ := hopens
            show Rule.proseText (c :: '\x7b' :: '\x7b' :: r) = [c]
            rw [Rule.proseText, if_neg (fun h => hc h.1)]
            exact congrArg (c :: ·) (proseText_of_opens ⟨r, rfl⟩)
      | cons d text =>
          have hbraces : ¬(c = '\x7b' ∧ d = '\x7b') := by
            rintro ⟨rfl, rfl⟩
            exact hwhole ⟨[], text, rfl⟩
          rw [List.cons_append, List.cons_append, Rule.proseText, if_neg hbraces]
          exact congrArg (c :: ·) (ih hmore (hrest.imp id fun h => ⟨h.1, by simpa using h.2⟩))

/-- The text in front of a tag is passed. -/
theorem textBefore_behind {text : List Char} (htext : Rule.proseText (text ++ rest) = text)
    (front : List Char) :
    textBefore true (.behind front (text ++ rest))
      = (if text = [] then [] else [⟨.special, String.ofList text, .after front⟩],
          .behind (front ++ text) rest) := by
  unfold textBefore
  rw [if_pos rfl, Cursor.rest_behind, htext, Cursor.place_behind]
  dsimp only
  rw [Cursor.skip_behind]

/-- Where a tag or the end comes next there is no text. -/
theorem textBefore_none (h : Rule.proseText rest = []) (front : List Char) :
    textBefore true (.behind front rest) = ([], .behind front rest) := by
  have hbefore := @textBefore_behind rest [] h front
  rw [if_pos rfl, List.append_nil] at hbefore
  exact hbefore

-- ============================================================ all tokens

/-- The tokens from a cursor on, without the measure that bounds them. -/
theorem tokensFrom_eq (outside : Bool) (cur : Cursor) :
    tokensFrom outside cur =
      match tagLexer.next (textBefore outside cur).2 with
      | (.error fault, _) => .error fault
      | (.ok none, _) => .ok (textBefore outside cur).1
      | (.ok (some t), after) =>
        if t.kind = .eof then .ok ((textBefore outside cur).1 ++ [t])
        else (tokensFrom (isClosing t) after).map ((textBefore outside cur).1 ++ t :: ·) := by
  rw [tokensFrom]
  split
  · next hnext => rw [hnext]
  · next hnext => rw [hnext]
  · next hnext => simp only [hnext, dite_eq_ite]

end Template

end Formula
