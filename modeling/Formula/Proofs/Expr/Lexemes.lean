/-
The lexemes of expressions, said of their characters (`Lexical`). Main
statement: where a blank follows, the lexer reads a lexeme to its end and no
further (`Lexical.reads`).

Each kind of lexeme ends where what follows cannot be a part of it: words
before anything but word characters (`EndsWord`), numbers before anything
but digits, points and exponents (`EndsNumber`), marks where they are not
the first half of something longer (`EndsMark`), quoted texts before
anything but the quote. A blank ends them all.
-/
import Formula.Proofs.Lex.Reading
import Formula.Proofs.Lex.Roles
import Formula.Proofs.Text.Quoted

namespace Formula

namespace Expr

open Lexer (isInitial isDigit_of_blank isInitial_of_blank ne_of_blank)

-- ============================================================== lexemes

/-- A point with digits behind it, or nothing. -/
def IsFraction (cs : List Char) : Prop :=
  cs = [] ∨ ∃ ds, ds ≠ [] ∧ (∀ d ∈ ds, isDigit d = true) ∧ cs = '.' :: ds

/-- An `e` in either case with digits behind it, before which a sign may
stand, or nothing. -/
def IsExponent (cs : List Char) : Prop :=
  cs = [] ∨ ∃ e sign ds, (e = 'e' ∨ e = 'E') ∧ (sign = [] ∨ sign = ['+'] ∨ sign = ['-'])
    ∧ ds ≠ [] ∧ (∀ d ∈ ds, isDigit d = true) ∧ cs = e :: (sign ++ ds)

/-- The symbols of two characters. -/
def pairs : List (List Char) :=
  [['<', '='], ['>', '='], ['<', '>'], ['!', '='], ['<', '<'], ['>', '>']]

/-- The characters that are symbols on their own: those with a role that
begin nothing else. -/
def IsMark (c : Char) : Prop :=
  ' ' < c ∧ c ≤ '\ufffe' ∧ isInitial c = false ∧ isDigit c = false ∧ c ≠ '"' ∧ c ≠ '\''

/-- The lexemes of expressions: how they are written, and the kind and text
of the tokens they make. -/
inductive Lexical : Lexeme → Prop where
  | word {c : Char} {cs : List Char} (first : isInitial c = true)
      (more : ∀ d ∈ cs, isInitial d = true ∨ isDigit d = true) :
      Lexical (.plain .word (c :: cs))
  | number {whole fraction exponent : List Char} (digits : ∀ d ∈ whole, isDigit d = true)
      (point : IsFraction fraction) (power : IsExponent exponent)
      (some : whole ≠ [] ∨ fraction ≠ []) :
      Lexical (.plain (if fraction = [] ∧ exponent = [] then .integer else .float)
        (whole ++ fraction ++ exponent))
  | quoted (text : List Char) : Lexical ⟨.quoted, Quoted.encode '\'' text, text⟩
  | name (text : List Char) : Lexical ⟨.word, Quoted.encode '"' text, text⟩
  | pair {cs : List Char} (known : cs ∈ pairs) : Lexical (.plain .symbol cs)
  | mark {c : Char} (mark : IsMark c) : Lexical (.plain .symbol [c])

/-- Whether the text is over or goes on with a blank. -/
def Stops (cs : List Char) : Prop := ∀ c, cs.head? = some c → c ≤ ' '

-- ====================================================== where lexemes end

/-- Whether the text is over or goes on with what no word goes on with. -/
def EndsWord (cs : List Char) : Prop :=
  ∀ c, cs.head? = some c → isInitial c = false ∧ isDigit c = false

/-- Whether the text is over or goes on with what no number goes on with. -/
def EndsNumber (cs : List Char) : Prop :=
  ∀ c, cs.head? = some c → isDigit c = false ∧ c ≠ '.' ∧ c ≠ 'e' ∧ c ≠ 'E'

/-- Whether a mark does not begin a longer symbol, a comment or a number
with the text behind it. -/
def EndsMark (mark : Char) (cs : List Char) : Prop :=
  ∀ c, cs.head? = some c →
    [mark, c] ∉ pairs ∧ (mark = '/' → c ≠ '/' ∧ c ≠ '*') ∧ (mark = '.' → isDigit c = false)

section

variable {rest : List Char}

theorem Stops.head_ne (h : Stops rest) {c : Char} (hc : ' ' < c) : rest.head? ≠ some c := by
  intro hhead
  exact absurd (h c hhead) (Nat.not_le.2 hc)

theorem Stops.endsWord (h : Stops rest) : EndsWord rest :=
  fun c hc => ⟨isInitial_of_blank (h c hc), isDigit_of_blank (h c hc)⟩

theorem Stops.endsNumber (h : Stops rest) : EndsNumber rest := by
  intro c hc
  have hblank : c ≤ ' ' := h c hc
  exact ⟨isDigit_of_blank hblank, ne_of_blank hblank (by decide), ne_of_blank hblank (by decide),
    ne_of_blank hblank (by decide)⟩

theorem Stops.endsMark (h : Stops rest) (mark : Char) : EndsMark mark rest := by
  intro c hc
  have hblank : c ≤ ' ' := h c hc
  have hpair : [mark, c] ∉ pairs := by
    intro hmem
    have hlast : ∀ pair ∈ pairs, ∀ d ∈ pair, ' ' < d := by simp [pairs]
    exact Nat.not_le.2 (hlast _ hmem c (by simp)) hblank
  exact ⟨hpair, fun _ => ⟨ne_of_blank hblank (by decide), ne_of_blank hblank (by decide)⟩,
    fun _ => isDigit_of_blank hblank⟩

theorem EndsNumber.not_isDigit (h : EndsNumber rest) :
    ∀ c, rest.head? = some c → isDigit c = false := fun c hc => (h c hc).1

theorem EndsNumber.head_ne_point (h : EndsNumber rest) : rest.head? ≠ some '.' :=
  fun hc => (h _ hc).2.1 rfl

theorem EndsNumber.head_ne_exponent (h : EndsNumber rest) :
    rest.head? ≠ some 'e' ∧ rest.head? ≠ some 'E' :=
  ⟨fun hc => (h _ hc).2.2.1 rfl, fun hc => (h _ hc).2.2.2 rfl⟩

-- ============================================================== numbers

theorem leadingDigits_append {ds : List Char} (hds : ∀ d ∈ ds, isDigit d = true)
    (hrest : ∀ c, rest.head? = some c → isDigit c = false) : leadingDigits (ds ++ rest) = ds :=
  Rule.takeWhile_append_stop hds hrest

theorem fractionText_eq_nil {cs : List Char} (h : cs.head? ≠ some '.') :
    Rule.fractionText cs = [] := by
  unfold Rule.fractionText
  split
  · exact absurd rfl h
  · rfl

theorem exponentText_eq_nil {cs : List Char} (hsmall : cs.head? ≠ some 'e')
    (hcapital : cs.head? ≠ some 'E') : Rule.exponentText cs = [] := by
  unfold Rule.exponentText
  split
  · next c r =>
    have hc : ¬(c = 'e' ∨ c = 'E') := by
      rintro (rfl | rfl)
      · exact hsmall rfl
      · exact hcapital rfl
    rw [if_neg hc]
  · rfl

theorem isDigit_ne {d c : Char} (hd : isDigit d = true) (hc : isDigit c = false) : d ≠ c := by
  rintro rfl
  rw [hd] at hc
  cases hc

theorem exponentText_append {exponent : List Char} (h : IsExponent exponent)
    (hend : EndsNumber rest) : Rule.exponentText (exponent ++ rest) = exponent := by
  rcases h with rfl | ⟨e, sign, ds, he, hsign, hne, hds, rfl⟩
  · exact exponentText_eq_nil hend.head_ne_exponent.1 hend.head_ne_exponent.2
  · have hdigits : leadingDigits (ds ++ rest) = ds :=
      leadingDigits_append hds hend.not_isDigit
    unfold Rule.exponentText
    rcases hsign with rfl | rfl | rfl
    · -- the first digit is no sign
      obtain ⟨d, r, rfl⟩ := List.exists_cons_of_ne_nil hne
      have hd := hds d (List.mem_cons_self ..)
      have hplus : d ≠ '+' := isDigit_ne hd (by decide)
      have hminus : d ≠ '-' := isDigit_ne hd (by decide)
      rw [List.cons_append] at hdigits
      simp [he, hplus, hminus, hdigits]
    · simp [he, hdigits, hne]
    · simp [he, hdigits, hne]

/-- What follows the digits of a number is no digit. -/
theorem not_isDigit_behind {fraction exponent : List Char} (hpoint : IsFraction fraction)
    (hpower : IsExponent exponent) (hend : EndsNumber rest) :
    ∀ c, (fraction ++ (exponent ++ rest)).head? = some c → isDigit c = false := by
  rcases hpoint with rfl | ⟨ds, -, -, rfl⟩
  · rcases hpower with rfl | ⟨e, sign, ds, he, -, -, -, rfl⟩
    · exact hend.not_isDigit
    · intro c hc
      cases hc
      rcases he with rfl | rfl <;> decide
  · intro c hc
    cases hc
    decide

theorem fractionText_append {fraction exponent : List Char} (hpoint : IsFraction fraction)
    (hpower : IsExponent exponent) (hend : EndsNumber rest) :
    Rule.fractionText (fraction ++ (exponent ++ rest)) = fraction := by
  have hbehind := not_isDigit_behind (.inl rfl) hpower hend
  rcases hpoint with rfl | ⟨ds, hne, hds, rfl⟩
  · refine fractionText_eq_nil ?_
    rcases hpower with rfl | ⟨e, sign, ds, he, -, -, -, rfl⟩
    · exact hend.head_ne_point
    · rcases he with rfl | rfl <;> simp
  · have hdigits : leadingDigits (ds ++ (exponent ++ rest)) = ds :=
      leadingDigits_append hds hbehind
    unfold Rule.fractionText
    rw [List.cons_append]
    show (if leadingDigits (ds ++ (exponent ++ rest)) = [] then [] else _) = _
    rw [hdigits, if_neg hne]

theorem read_number {whole fraction exponent : List Char}
    (hdigits : ∀ d ∈ whole, isDigit d = true) (hpoint : IsFraction fraction)
    (hpower : IsExponent exponent) (hsome : whole ≠ [] ∨ fraction ≠ []) (hend : EndsNumber rest) :
    Rule.Numbers.read .scientific (whole ++ (fraction ++ (exponent ++ rest)))
      = some (.plain (if fraction = [] ∧ exponent = [] then .integer else .float)
          (whole ++ fraction ++ exponent)) := by
  have hwhole : leadingDigits (whole ++ (fraction ++ (exponent ++ rest))) = whole :=
    leadingDigits_append hdigits (not_isDigit_behind hpoint hpower hend)
  have hempty : ¬(whole = [] ∧ fraction = []) := by
    rintro ⟨hw, hf⟩
    exact hsome.elim (· hw) (· hf)
  unfold Rule.Numbers.read Rule.Numbers.sign
  dsimp only
  rw [List.length_nil, List.drop_zero, hwhole, Nat.zero_add, List.drop_left,
    fractionText_append hpoint hpower hend, if_neg hempty, ← List.append_assoc,
    ← List.length_append, List.drop_left]
  unfold Rule.Numbers.exponent
  dsimp only
  rw [exponentText_append hpower hend, List.nil_append]

-- ============================================================== symbols

theorem symbols_expression :
    Lexer.expression.symbols
      = some (.branch '<' none (.branch '=' (some .symbol) .leaf
          (.branch '>' (some .symbol) .leaf (.branch '<' (some .symbol) .leaf .leaf)))
        (.branch '>' none (.branch '=' (some .symbol) .leaf
          (.branch '>' (some .symbol) .leaf .leaf))
        (.branch '!' none (.branch '=' (some .symbol) .leaf .leaf) .leaf))) := rfl

/-- A character that does not begin a pair is a symbol on its own. -/
theorem symbol_mark (c : Char) (hpair : ∀ d, rest.head? = some d → [c, d] ∉ pairs) :
    Lexer.expression.symbol (c :: rest) = .plain .symbol [c] := by
  have hnone : (Lexer.expression.symbols.getD .leaf).longest? (c :: rest) = none := by
    rw [symbols_expression]
    cases rest with
    | nil => simp [Symbols.longest?]
    | cons d r =>
        have hunknown := hpair d rfl
        simp only [pairs, List.mem_cons, List.cons.injEq, and_true, List.not_mem_nil, or_false,
          not_or] at hunknown
        grind [Symbols.longest?]
  unfold Lexer.symbol Rule.readSymbol
  rw [hnone]
  rfl

theorem symbol_pair {cs : List Char} (h : cs ∈ pairs) (rest : List Char) :
    Lexer.expression.symbol (cs ++ rest) = .plain .symbol cs := by
  unfold Lexer.symbol Rule.readSymbol
  rw [symbols_expression]
  simp only [pairs, List.mem_cons, List.not_mem_nil, or_false] at h
  rcases h with rfl | rfl | rfl | rfl | rfl | rfl <;> rfl

-- =============================================================== reading

/-- What it is to read a lexeme to its end and no further, wherever it
stands. -/
def Reads (l : Lexeme) (rest : List Char) : Prop :=
  ∀ front, Lexer.expression.next (.behind front (l.source ++ rest))
    = (.ok (some (Lexer.Lexeme.token l (.after front))), .behind (front ++ l.source) rest)

variable {l : Lexeme} {c : Char} {r : List Char}

/-- Options neither drop nor change tokens of these kinds. -/
theorem reads_of_lexeme (h : Lexer.expression.lexeme c r = .ok l)
    (hrest : c :: r = l.source ++ rest)
    (hkind : l.kind = .word ∨ l.kind = .symbol ∨ l.kind = .integer ∨ l.kind = .float) :
    Reads l rest := by
  intro front
  have heof : l.kind ≠ .eof := by rcases hkind with hk | hk | hk | hk <;> simp [hk]
  have hkept : Lexer.expression.options.skips l.kind = false := by
    rcases hkind with hk | hk | hk | hk <;> simp [hk, Lexer.Options.skips]
  have hfinish : Lexer.expression.finish (Lexer.Lexeme.token l (.after front))
      = Lexer.Lexeme.token l (.after front) := by
    unfold Lexer.finish
    rw [Lexer.kind_token]
    rcases hkind with hk | hk | hk | hk <;> rw [hk] <;> rfl
  rw [← hrest, Lexer.next_of_kept front h hrest heof hkept, hfinish]

theorem reads_word {cs : List Char} (first : isInitial c = true)
    (more : ∀ d ∈ cs, isInitial d = true ∨ isDigit d = true) (hend : EndsWord rest) :
    Reads (.plain .word (c :: cs)) rest := by
  have hrun : (cs ++ rest).takeWhile Lexer.expressionLetters.contains = cs := by
    refine Rule.takeWhile_append_stop ?_ ?_
    · intro d hd
      rw [Lexer.contains_expressionLetters, Bool.or_eq_true]
      exact more d hd
    · intro d hd
      rw [Lexer.contains_expressionLetters, (hend d hd).1, (hend d hd).2]
      rfl
  have hread : Rule.read (.runs (.word Lexer.expressionLetters)) (c :: (cs ++ rest))
      = .ok (some (.plain .word (c :: cs))) := by
    show Except.ok (some (Lexeme.plain .word
      ([c] ++ (cs ++ rest).takeWhile Lexer.expressionLetters.contains))) = _
    rw [hrun]
    rfl
  exact reads_of_lexeme (Lexer.lexeme_of_found (Lexer.find?_expression_word first) rfl hread
    (List.cons_ne_nil _ _)) rfl (.inl rfl)

theorem reads_number {whole fraction exponent : List Char}
    (digits : ∀ d ∈ whole, isDigit d = true) (point : IsFraction fraction)
    (power : IsExponent exponent) (some : whole ≠ [] ∨ fraction ≠ []) (hend : EndsNumber rest) :
    Reads (.plain (if fraction = [] ∧ exponent = [] then .integer else .float)
      (whole ++ fraction ++ exponent)) rest := by
  have hread := read_number digits point power some hend
  -- a number begins with a digit or a point
  obtain ⟨c, r, hc, hfirst⟩ : ∃ c r, whole ++ fraction ++ exponent = c :: r
      ∧ (isDigit c = true ∨ c = '.') := by
    cases whole with
    | cons c r => exact ⟨c, _, rfl, .inl (digits c (List.mem_cons_self ..))⟩
    | nil =>
        rcases point with rfl | ⟨ds, -, -, rfl⟩
        · exact absurd some (by simp)
        · exact ⟨_, _, rfl, .inr rfl⟩
  rw [← List.append_assoc, ← List.append_assoc, hc] at hread
  rw [hc]
  refine reads_of_lexeme (Lexer.lexeme_of_found (Lexer.find?_expression_number hfirst) rfl
    (congrArg Except.ok hread) (List.cons_ne_nil _ _)) rfl ?_
  show (if fraction = [] ∧ exponent = [] then Token.Kind.integer else .float) = _ ∨ _
  split
  · exact .inr (.inr (.inl rfl))
  · exact .inr (.inr (.inr rfl))

/-- Digits alone are an integer. -/
theorem reads_digits {digits : List Char} (plain : ∀ d ∈ digits, isDigit d = true)
    (written : digits ≠ []) (hend : EndsNumber rest) : Reads (.plain .integer digits) rest := by
  have hread := reads_number plain (.inl rfl) (.inl rfl) (.inl written) hend
  rw [List.append_nil, List.append_nil, if_pos ⟨rfl, rfl⟩] at hread
  exact hread

/-- A quote is closed by the first one that is not doubled. -/
theorem closing_quoted {q : Char} (text : List Char) (hend : rest.head? ≠ some q) :
    Quoted.closing q (Quoted.double q text ++ [q] ++ rest) = some (Quoted.double q text ++ [q]) := by
  rw [List.append_assoc]
  exact Quoted.closing_double hend

theorem reads_quoted (text : List Char) (hend : rest.head? ≠ some '\'') :
    Reads ⟨.quoted, Quoted.encode '\'' text, text⟩ rest := by
  have hread : Rule.read (.quotes .naming) ('\'' :: (Quoted.double '\'' text ++ ['\''] ++ rest))
      = .ok (some (.plain .quoted (Quoted.encode '\'' text))) := by
    show (Rule.Quotes.read _ _).map _ = _
    unfold Rule.Quotes.read
    dsimp only
    rw [closing_quoted text hend]
    rfl
  have hlexeme : Lexer.expression.lexeme '\'' (Quoted.double '\'' text ++ ['\''] ++ rest)
      = .ok (.plain .quoted (Quoted.encode '\'' text)) :=
    Lexer.lexeme_of_found (by rw [Lexer.find?_expression]; rfl) rfl hread (List.cons_ne_nil _ _)
  intro front
  -- other than a name, a quoted text is decoded when its token is finished
  have hfinish : Lexer.expression.finish
      (Lexer.Lexeme.token (.plain .quoted (Quoted.encode '\'' text)) (.after front))
      = Lexer.Lexeme.token ⟨.quoted, Quoted.encode '\'' text, text⟩ (.after front) := by
    unfold Lexer.finish Lexer.Lexeme.token Lexeme.plain
    dsimp only
    rw [String.toList_ofList]
    show Token.mk _ (String.ofList (Quoted.decode '\'' (Quoted.encode '\'' text))) _ = _
    rw [Quoted.decode_encode]
  have hrest : '\'' :: (Quoted.double '\'' text ++ ['\''] ++ rest)
      = (Lexeme.plain .quoted (Quoted.encode '\'' text)).source ++ rest := rfl
  have hnext := Lexer.next_of_kept front hlexeme hrest nofun rfl
  rw [hfinish] at hnext
  exact hnext

theorem reads_name (text : List Char) (hend : rest.head? ≠ some '"') :
    Reads ⟨.word, Quoted.encode '"' text, text⟩ rest := by
  have hread : Rule.read (.quotes .naming) ('"' :: (Quoted.double '"' text ++ ['"'] ++ rest))
      = .ok (some ⟨.word, Quoted.encode '"' text, text⟩) := by
    show (Rule.Quotes.read _ _).map _ = _
    unfold Rule.Quotes.read
    dsimp only
    rw [closing_quoted text hend]
    show Except.ok (some (Lexeme.mk .word _ (Quoted.decode '"' (Quoted.encode '"' text)))) = _
    rw [Quoted.decode_encode]
    rfl
  exact reads_of_lexeme (Lexer.lexeme_of_found (by rw [Lexer.find?_expression]; rfl) rfl hread
    (List.cons_ne_nil _ _)) rfl (.inl rfl)

/-- A character without another role is read as a symbol. -/
theorem lexeme_of_symbolRole (hrole : Lexer.expression.roles.find? c = some .symbol)
    (hsymbol : Lexer.expression.symbol (c :: r) = l) (hl : l.source ≠ []) :
    Lexer.expression.lexeme c r = .ok l := by
  have hread : Rule.read (.symbols (Lexer.expression.symbols.getD .leaf)) (c :: r)
      = .ok (some l) := congrArg (Except.ok ∘ some) hsymbol
  exact Lexer.lexeme_of_found hrole rfl hread hl

theorem reads_pair {cs : List Char} (known : cs ∈ pairs) (rest : List Char) :
    Reads (.plain .symbol cs) rest := by
  have hsymbol := symbol_pair known rest
  obtain ⟨c, r, rfl, hrole⟩ : ∃ c r, cs = c :: r
      ∧ Lexer.expression.roles.find? c = some .symbol := by
    simp only [pairs, List.mem_cons, List.not_mem_nil, or_false] at known
    rcases known with rfl | rfl | rfl | rfl | rfl | rfl <;>
      exact ⟨_, _, rfl, by rw [Lexer.find?_expression]; rfl⟩
  exact reads_of_lexeme (lexeme_of_symbolRole hrole hsymbol (List.cons_ne_nil _ _)) rfl
    (.inr (.inl rfl))

/-- A slash on its own begins no comment. -/
theorem read_slash (hline : rest.head? ≠ some '/') (hblock : rest.head? ≠ some '*') :
    Rule.read (.comments .slashed) ('/' :: rest) = .ok none := by
  show Rule.Comments.read .slashed ('/' :: rest) = _
  unfold Rule.Comments.read
  split
  case h_1 h => cases h
  case h_2 h => cases h; exact absurd rfl hline
  case h_3 h => cases h; exact absurd rfl hblock
  case h_4 => rfl

/-- A point without digits behind it begins no number. -/
theorem read_point (hdigit : ∀ c, rest.head? = some c → isDigit c = false) :
    Rule.read (.numbers .scientific) ('.' :: rest) = .ok none := by
  have hdigits : leadingDigits ([] ++ rest) = [] := leadingDigits_append (by simp) hdigit
  have hfraction : Rule.fractionText ('.' :: rest) = [] := if_pos hdigits
  show Except.ok (Rule.Numbers.read .scientific ('.' :: rest)) = _
  unfold Rule.Numbers.read
  rw [if_pos ⟨rfl, hfraction⟩]

theorem reads_mark (hc : IsMark c) (hend : EndsMark c rest) :
    Reads (.plain .symbol [c]) rest := by
  obtain ⟨hblank, hlast, hinitial, hdigit, hname, hquote⟩ := hc
  have hsymbol : Lexer.expression.symbol (c :: rest) = .plain .symbol [c] :=
    symbol_mark c fun d hd => (hend d hd).1
  have hsource : (Lexer.expression.symbol (c :: rest)).source ≠ [] := by
    rw [hsymbol]
    exact List.cons_ne_nil _ _
  refine reads_of_lexeme (c := c) (r := rest) ?_ rfl (.inr (.inl rfl))
  have hrole := Lexer.find?_expression c
  by_cases hslash : c = '/'
  · subst hslash
    have hline : rest.head? ≠ some '/' := fun hd => ((hend _ hd).2.1 rfl).1 rfl
    have hblock : rest.head? ≠ some '*' := fun hd => ((hend _ hd).2.1 rfl).2 rfl
    rw [Lexer.lexeme_of_symbol hrole rfl (read_slash hline hblock) hsource, hsymbol]
  by_cases hpoint : c = '.'
  · subst hpoint
    have hdigits : ∀ d, rest.head? = some d → isDigit d = false :=
      fun d hd => (hend d hd).2.2 rfl
    rw [Lexer.lexeme_of_symbol hrole rfl (read_point hdigits) hsource, hsymbol]
  have hplain : Lexer.expression.roles.find? c = some .symbol := by
    rw [hrole]
    simp [hslash, hname, hquote, hdigit, hpoint, hinitial, hblank, hlast]
  exact lexeme_of_symbolRole hplain hsymbol (List.cons_ne_nil _ _)

/-- A lexeme is read to its end and no further where a blank follows. -/
theorem Lexical.reads (hl : Lexical l) (hstop : Stops rest) : Reads l rest := by
  cases hl with
  | word first more => exact reads_word first more hstop.endsWord
  | number digits point power some => exact reads_number digits point power some hstop.endsNumber
  | quoted text => exact reads_quoted text (hstop.head_ne (by decide))
  | name text => exact reads_name text (hstop.head_ne (by decide))
  | pair known => exact reads_pair known rest
  | mark mark => exact reads_mark mark (hstop.endsMark _)

end

end Expr

end Formula
