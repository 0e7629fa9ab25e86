/-
Number literals. The rule for numbers takes the longest numeral in front of a
text, or nothing if there is none (`read_longest`). It takes the leading digits,
then a fraction, then an exponent, each if there is one, and never looks back. That
this is longest match comes in two halves: what it takes is a numeral, and no
numeral in front of the text goes beyond it (`isPrefix_taken`), which is shown part
by part from the exponent up.

Every numeral has a value: an integer where it is whole and fits 64 bits, and a
float otherwise (`classify_numeral`).
-/
import Mathlib.Algebra.Group.Nat.Defs
import Formula.Expr.Symbol
import Formula.Proofs.Expr.Lexemes
import Formula.Proofs.Lex.LongestMatch
import Formula.Proofs.Number.Decimal
import Formula.Proofs.Text.Capitals

namespace Formula

namespace Expr

-- ============================================================== numerals

/-- The numerals of expressions, and the kinds of tokens they make: digits with a
fraction and an exponent, both optional, or a fraction with an optional exponent. -/
inductive Numeral : Token.Kind → List Char → Prop where
  | parts {whole fraction exponent : List Char} (digits : ∀ d ∈ whole, isDigit d = true)
      (point : IsFraction fraction) (power : IsExponent exponent)
      (some : whole ≠ [] ∨ fraction ≠ []) :
    Numeral (if fraction = [] ∧ exponent = [] then .integer else .float)
      (whole ++ fraction ++ exponent)

/-- The longest numeral in front of a text. -/
structure LongestNumeral (kind : Token.Kind) (text cs : List Char) : Prop where
  numeral : Numeral kind text
  front : text <+: cs
  longest : ∀ {kind' text'}, Numeral kind' text' → text' <+: cs → text' <+: text

/-- Whether no numeral is in front of a text. -/
def NoNumeral (cs : List Char) : Prop := ∀ {kind text}, Numeral kind text → ¬text <+: cs

/-- A numeral begins with a digit or a point. -/
theorem Numeral.first {kind : Token.Kind} {text : List Char} (h : Numeral kind text) :
    ∃ c cs, text = c :: cs ∧ (isDigit c = true ∨ c = '.') := by
  obtain ⟨hdigits, hpoint, -, hsome⟩ := h
  rename_i whole fraction exponent
  cases whole with
  | cons c cs => exact ⟨c, _, rfl, .inl (hdigits c List.mem_cons_self)⟩
  | nil =>
      rcases hpoint with rfl | ⟨ds, -, -, rfl⟩
      · exact absurd hsome (by simp)
      · exact ⟨'.', _, rfl, .inr rfl⟩

-- ========================================================= what is taken

theorem isDigit_of_mem_leadingDigits {cs : List Char} {d : Char} (h : d ∈ leadingDigits cs) :
    isDigit d = true := List.all_eq_true.1 List.all_takeWhile d h

theorem isFraction_fractionText (cs : List Char) : IsFraction (Rule.fractionText cs) := by
  unfold Rule.fractionText
  split
  · split
    · exact .inl rfl
    · next r hne => exact .inr ⟨leadingDigits r, hne, fun d => isDigit_of_mem_leadingDigits, rfl⟩
  · exact .inl rfl

theorem isExponent_exponentText (cs : List Char) : IsExponent (Rule.exponentText cs) := by
  unfold Rule.exponentText
  split
  · next e r =>
    split
    · next he =>
      split
      · next s ds =>
        split
        · next hs =>
          split
          · exact .inl rfl
          · next hne =>
            refine .inr ⟨e, [s], leadingDigits ds, he, ?_, hne,
              fun d => isDigit_of_mem_leadingDigits, rfl⟩
            rcases hs with rfl | rfl
            · exact .inr (.inl rfl)
            · exact .inr (.inr rfl)
        · split
          · exact .inl rfl
          · next hne =>
            exact .inr ⟨e, [], leadingDigits (s :: ds), he, .inl rfl, hne,
              fun d => isDigit_of_mem_leadingDigits, rfl⟩
      · exact .inl rfl
    · exact .inl rfl
  · exact .inl rfl

-- ======================================================= nothing longer

/-- Digits in front of a text are among its leading digits. -/
theorem isPrefix_leadingDigits_of_digits {ds cs : List Char} (hds : ∀ d ∈ ds, isDigit d = true)
    (h : ds <+: cs) : ds <+: leadingDigits cs := by
  obtain ⟨r, rfl⟩ := h
  unfold leadingDigits
  rw [List.takeWhile_append_of_pos hds]
  exact List.prefix_append ds _

theorem leadingDigits_ne_nil {ds cs : List Char} (hne : ds ≠ []) (hds : ∀ d ∈ ds, isDigit d = true)
    (h : ds <+: cs) : leadingDigits cs ≠ [] := by
  intro hnil
  have hdigits := isPrefix_leadingDigits_of_digits hds h
  rw [hnil] at hdigits
  exact hne (List.prefix_nil.1 hdigits)

/-- Digits in front of a text are all of its leading digits if something else comes
behind them. -/
theorem leadingDigits_of_isPrefix {ds t cs : List Char} (hds : ∀ d ∈ ds, isDigit d = true)
    (hne : t ≠ []) (ht : ∀ c, t.head? = some c → isDigit c = false) (h : ds ++ t <+: cs) :
    leadingDigits cs = ds ∧ t <+: cs.drop (leadingDigits cs).length := by
  obtain ⟨r, rfl⟩ := h
  have hhead : ∀ c, (t ++ r).head? = some c → isDigit c = false := by
    intro c hc
    obtain ⟨d, t, rfl⟩ := List.exists_cons_of_ne_nil hne
    exact ht c hc
  have hleading : leadingDigits (ds ++ t ++ r) = ds := by
    rw [List.append_assoc]
    exact leadingDigits_append hds hhead
  rw [hleading, List.append_assoc, List.drop_left]
  exact ⟨rfl, List.prefix_append t r⟩

/-- What follows the digits of a numeral is no digit. -/
theorem head_not_isDigit {fraction exponent : List Char} (hpoint : IsFraction fraction)
    (hpower : IsExponent exponent) :
    ∀ c, (fraction ++ exponent).head? = some c → isDigit c = false := by
  have hbehind : ∀ c, (fraction ++ (exponent ++ [])).head? = some c → isDigit c = false :=
    not_isDigit_behind hpoint hpower nofun
  rwa [List.append_nil] at hbehind

/-- An exponent in front of a text is no longer than the one that is taken. -/
theorem isPrefix_exponentText_of_exponent {exponent cs : List Char} (hpower : IsExponent exponent)
    (h : exponent <+: cs) : exponent <+: Rule.exponentText cs := by
  rcases hpower with rfl | ⟨e, sign, ds, he, hsign, hne, hds, rfl⟩
  · exact List.nil_prefix
  · obtain ⟨r, rfl⟩ := h
    have hdigits : ds <+: leadingDigits (ds ++ r) :=
      isPrefix_leadingDigits_of_digits hds (List.prefix_append ds r)
    have hsome : leadingDigits (ds ++ r) ≠ [] :=
      leadingDigits_ne_nil hne hds (List.prefix_append ds r)
    unfold Rule.exponentText
    rcases hsign with rfl | rfl | rfl
    · -- the first digit is no sign
      obtain ⟨d, ds, rfl⟩ := List.exists_cons_of_ne_nil hne
      have hd := hds d List.mem_cons_self
      have hplus : d ≠ '+' := isDigit_ne hd (by decide)
      have hminus : d ≠ '-' := isDigit_ne hd (by decide)
      rw [List.cons_append] at hdigits hsome
      simpa [he, hplus, hminus, hsome] using hdigits
    · simpa [he, hsome] using hdigits
    · simpa [he, hsome] using hdigits

/-- Nor is a fraction, with an exponent behind it. -/
theorem isPrefix_behind_digits {fraction exponent cs : List Char} (hpoint : IsFraction fraction)
    (hpower : IsExponent exponent) (h : fraction ++ exponent <+: cs) :
    fraction ++ exponent <+: Rule.fractionText cs
        ++ Rule.exponentText (cs.drop (Rule.fractionText cs).length)
      ∧ (Rule.fractionText cs = [] → fraction = []) := by
  rcases hpoint with rfl | ⟨ds, hne, hds, rfl⟩
  · refine ⟨?_, fun _ => rfl⟩
    by_cases hnone : exponent = []
    · rw [hnone]
      exact List.nil_prefix
    · -- what begins with an exponent has no fraction in front
      have hfraction : Rule.fractionText cs = [] := by
        obtain ⟨r, rfl⟩ := h
        obtain ⟨e, sign, ds, he, -, -, -, rfl⟩ := hpower.resolve_left hnone
        refine fractionText_eq_nil ?_
        rcases he with rfl | rfl <;> simp
      rw [hfraction]
      exact isPrefix_exponentText_of_exponent hpower h
  · obtain ⟨r, rfl⟩ : ∃ r, cs = '.' :: r := by
      obtain ⟨r, rfl⟩ := h
      exact ⟨_, rfl⟩
    have hbehind : ds ++ exponent <+: r := (List.cons_prefix_cons.1 h).2
    have hds' : ds <+: r := (List.prefix_append ..).trans hbehind
    have hfraction : Rule.fractionText ('.' :: r) = '.' :: leadingDigits r :=
      if_neg (leadingDigits_ne_nil hne hds hds')
    rw [hfraction]
    refine ⟨?_, nofun⟩
    rw [List.cons_append, List.cons_append, List.cons_prefix_cons, List.length_cons,
      List.drop_succ_cons]
    refine ⟨rfl, ?_⟩
    by_cases hnone : exponent = []
    · rw [hnone, List.append_nil]
      exact (isPrefix_leadingDigits_of_digits hds hds').trans (List.prefix_append ..)
    · obtain ⟨hleading, hrest⟩ := leadingDigits_of_isPrefix hds hnone
        (head_not_isDigit (.inl rfl) hpower) hbehind
      rw [hleading] at hrest ⊢
      exact (List.prefix_append_right_inj ds).2 (isPrefix_exponentText_of_exponent hpower hrest)

/-- No numeral in front of a text goes beyond what is taken, and where nothing is
taken there is none. -/
theorem isPrefix_taken {whole fraction exponent cs : List Char}
    (hdigits : ∀ d ∈ whole, isDigit d = true) (hpoint : IsFraction fraction)
    (hpower : IsExponent exponent) (h : whole ++ fraction ++ exponent <+: cs) :
    let digits := leadingDigits cs
    let point := Rule.fractionText (cs.drop digits.length)
    whole ++ fraction ++ exponent
        <+: digits ++ point ++ Rule.exponentText (cs.drop (digits.length + point.length))
      ∧ (digits = [] → point = [] → whole = [] ∧ fraction = []) := by
  intro digits point
  rw [List.append_assoc] at h ⊢
  rw [List.append_assoc]
  by_cases hnone : fraction ++ exponent = []
  · -- digits alone
    have hfraction : fraction = [] := (List.append_eq_nil_iff.1 hnone).1
    rw [hnone, List.append_nil] at h ⊢
    have hwhole : whole <+: digits := isPrefix_leadingDigits_of_digits hdigits h
    exact ⟨hwhole.trans (List.prefix_append ..),
      fun hnil _ => ⟨List.prefix_nil.1 (hnil ▸ hwhole), hfraction⟩⟩
  · obtain ⟨hwhole, hrest⟩ := leadingDigits_of_isPrefix hdigits hnone
      (head_not_isDigit hpoint hpower) h
    obtain ⟨hbehind, hfraction⟩ := isPrefix_behind_digits hpoint hpower hrest
    rw [List.drop_drop] at hbehind
    have hdigits' : whole = digits := hwhole.symm
    rw [hdigits']
    exact ⟨(List.prefix_append_right_inj digits).2 hbehind,
      fun hnil hpoint => ⟨hnil, hfraction hpoint⟩⟩

/-- What the rule for numbers takes, part by part. -/
theorem read_scientific (cs : List Char) :
    Rule.Numbers.read .scientific cs =
      let digits := leadingDigits cs
      let point := Rule.fractionText (cs.drop digits.length)
      let power := Rule.exponentText (cs.drop (digits.length + point.length))
      if digits = [] ∧ point = [] then none
      else some (.plain (if point = [] ∧ power = [] then .integer else .float)
        (digits ++ point ++ power)) := by
  unfold Rule.Numbers.read Rule.Numbers.sign Rule.Numbers.exponent
  dsimp only
  rw [List.length_nil, List.drop_zero, Nat.zero_add, List.nil_append]

/-- The rule for numbers takes the longest numeral in front of a text, and nothing
only where there is none. -/
theorem read_longest (cs : List Char) :
    (∃ kind text, LongestNumeral kind text cs
        ∧ Rule.Numbers.read .scientific cs = some (.plain kind text))
      ∨ NoNumeral cs ∧ Rule.Numbers.read .scientific cs = none := by
  rw [read_scientific]
  dsimp only
  split
  · next hnone =>
    refine .inr ⟨?_, rfl⟩
    intro kind text hnumeral hfront
    obtain ⟨hdigits, hpoint, hpower, hsome⟩ := hnumeral
    obtain ⟨hwhole, hfraction⟩ := (isPrefix_taken hdigits hpoint hpower hfront).2 hnone.1 hnone.2
    exact hsome.elim (· hwhole) (· hfraction)
  · next hsome =>
    refine .inl ⟨_, _, ⟨?_, ?_, ?_⟩, rfl⟩
    · exact .parts (fun d => isDigit_of_mem_leadingDigits) (isFraction_fractionText _)
        (isExponent_exponentText _) (Decidable.not_and_iff_or_not.1 hsome)
    · refine Rule.isPrefix_append (Rule.isPrefix_append (Rule.isPrefix_leadingDigits cs)
        (Rule.isPrefix_fractionText _)) ?_
      rw [List.length_append]
      exact Rule.isPrefix_exponentText _
    · intro kind text hnumeral hfront
      obtain ⟨hdigits, hpoint, hpower, -⟩ := hnumeral
      exact (isPrefix_taken hdigits hpoint hpower hfront).1

/-- A numeral on its own is read as what it is. -/
theorem Numeral.read {kind : Token.Kind} {text : List Char} (h : Numeral kind text) :
    Rule.Numbers.read .scientific text = some (.plain kind text) := by
  obtain ⟨hdigits, hpoint, hpower, hsome⟩ := h
  have hend : EndsNumber [] := nofun
  have hread := read_number hdigits hpoint hpower hsome hend
  rwa [List.append_nil, ← List.append_assoc] at hread

/-- Numerals are of one kind only. -/
theorem Numeral.kind_unique {kind kind' : Token.Kind} {text : List Char} (h : Numeral kind text)
    (h' : Numeral kind' text) : kind = kind' := by
  have hread := h.read
  rw [h'.read] at hread
  exact (congrArg Lexeme.kind (Option.some.inj hread)).symm

-- ============================================================== at a cursor

/-- What is read as a number at a cursor, and the cursor behind it. -/
inductive ReadAsNumber (lx : Lexer) (cur : Cursor) :
    Except Fault (Option Token) × Cursor → Prop where
  /-- The longest numeral, where there is one. -/
  | numeral {kind : Token.Kind} {text : List Char} (h : LongestNumeral kind text cur.rest) :
    ReadAsNumber lx cur
      (.ok (some ⟨kind, String.ofList text, cur.place⟩), cur.skip text.length)
  /-- A symbol, where there is none. -/
  | symbol (h : NoNumeral cur.rest) :
    ReadAsNumber lx cur (.ok (some (lx.readSymbol cur).1), (lx.readSymbol cur).2)

/-- What the rule for numbers finds, or else the symbol there. -/
def numberOrSymbol (lx : Lexer) (cs : List Char) : Lexeme :=
  (Rule.Numbers.read .scientific cs).getD (lx.symbol cs)

theorem readAsNumber_numberOrSymbol (lx : Lexer) (cur : Cursor) :
    ReadAsNumber lx cur (.ok (some (Lexer.Lexeme.token (numberOrSymbol lx cur.rest) cur.place)),
      cur.skip (numberOrSymbol lx cur.rest).source.length) := by
  unfold numberOrSymbol
  rcases read_longest cur.rest with ⟨kind, text, hlongest, hread⟩ | ⟨hnone, hread⟩
  · rw [hread]
    exact .numeral hlongest
  · have hsymbol : ReadAsNumber lx cur _ := .symbol hnone
    rw [Lexer.readSymbol, Lexer.symbolAt_eq] at hsymbol
    rw [hread]
    exact hsymbol

/-- Numerals are not empty, and neither are symbols where there is something to
read. -/
theorem source_numberOrSymbol_ne_nil (lx : Lexer) (c : Char) (r : List Char) :
    (numberOrSymbol lx (c :: r)).source ≠ [] := by
  unfold numberOrSymbol
  rcases read_longest (c :: r) with ⟨kind, text, hlongest, hread⟩ | ⟨-, hread⟩
  · rw [hread]
    obtain ⟨d, ds, rfl, -⟩ := hlongest.numeral.first
    exact List.cons_ne_nil d ds
  · rw [hread]
    exact Rule.source_readSymbol_ne_nil _ c r

/-- A number or a symbol is what the lexer of expressions reads at characters that may
begin a number. -/
theorem lexeme_number {c : Char} (h : Lexer.expression.roles.find? c = some .number)
    (r : List Char) :
    Lexer.expression.lexeme c r = .ok (numberOrSymbol Lexer.expression (c :: r)) := by
  rw [Lexer.lexeme_of_rule h rfl]
  exact congrArg Except.ok (if_neg (source_numberOrSymbol_ne_nil _ c r))

-- ================================================================ values

theorem afterDigits_append {ds rest : List Char} (hds : ∀ d ∈ ds, isDigit d = true)
    (hrest : ∀ c, rest.head? = some c → isDigit c = false) : afterDigits (ds ++ rest) = rest := by
  have hwhole := leadingDigits_append_afterDigits (ds ++ rest)
  rw [leadingDigits_append hds hrest] at hwhole
  exact List.append_cancel_left hwhole

/-- Every exponent is a number. -/
theorem exists_exponent? {exponent : List Char} (h : IsExponent exponent) :
    ∃ n, exponent? exponent = some n := by
  rcases h with rfl | ⟨e, sign, ds, he, hsign, hne, hds, rfl⟩
  · exact ⟨0, rfl⟩
  · have hsigned : ∃ negative, signed (sign ++ ds) = (negative, ds) := by
      rcases hsign with rfl | rfl | rfl
      · exact ⟨false, signed_digits hds⟩
      · exact ⟨false, rfl⟩
      · exact ⟨true, rfl⟩
    obtain ⟨negative, hsigned⟩ := hsigned
    unfold exponent?
    dsimp only
    rw [hsigned]
    exact ⟨_, if_pos ⟨he, hne, List.all_eq_true.2 hds⟩⟩

/-- The decimal number of a numeral has the digits of its whole part and its
fraction. -/
theorem decimal?_of_parts {whole fraction exponent : List Char}
    (hdigits : ∀ d ∈ whole, isDigit d = true) (hpoint : IsFraction fraction)
    (hpower : IsExponent exponent) (hsome : whole ≠ [] ∨ fraction ≠ []) :
    decimal? (whole ++ fraction ++ exponent) = (exponent? exponent).map fun e =>
      ⟨numberOf (whole ++ fraction.tail), e - fraction.tail.length⟩ := by
  have hhead := head_not_isDigit hpoint hpower
  unfold decimal?
  dsimp only
  rw [List.append_assoc, leadingDigits_append hdigits hhead, afterDigits_append hdigits hhead]
  rcases hpoint with rfl | ⟨ds, hne, hds, rfl⟩
  · have hwhole : whole ≠ [] := hsome.resolve_right fun h => h rfl
    rcases hpower with rfl | ⟨e, sign, ds, he, -, -, -, rfl⟩
    · exact if_neg fun h => hwhole h.1
    · rcases he with rfl | rfl <;> exact if_neg fun h => hwhole h.1
  · have hexponent : ∀ c, exponent.head? = some c → isDigit c = false :=
      head_not_isDigit (.inl rfl) hpower
    show (if whole = [] ∧ leadingDigits (ds ++ exponent) = [] then none
      else (exponent? (afterDigits (ds ++ exponent))).map fun e =>
        (⟨numberOf (whole ++ leadingDigits (ds ++ exponent)),
          e - (leadingDigits (ds ++ exponent)).length⟩ : Decimal)) = _
    rw [leadingDigits_append hds hexponent, afterDigits_append hds hexponent,
      if_neg fun h => hne h.2]
    rfl

/-- What can be the first character of a numeral begins no word for a float, and is no
sign. -/
theorem plain_of_first {c : Char} (h : isDigit c = true ∨ c = '.') :
    c.toLower ≠ 'i' ∧ c.toLower ≠ 'n' ∧ c ≠ '+' ∧ c ≠ '-' := by
  have hascii : c.toNat < 128 := by
    rcases h with h | rfl
    · unfold isDigit at h
      rw [Bool.and_eq_true, decide_eq_true_eq, decide_eq_true_eq] at h
      have hlast : c.toNat ≤ 57 := h.2
      omega
    · decide
  exact forall_ascii (P := fun c => isDigit c = true ∨ c = '.' →
    c.toLower ≠ 'i' ∧ c.toLower ≠ 'n' ∧ c ≠ '+' ∧ c ≠ '-') (by decide) hascii h

/-- A numeral is read as a decimal number. -/
theorem float?_of_first {c : Char} {cs : List Char} (h : isDigit c = true ∨ c = '.') :
    float? (c :: cs) = (decimal? (c :: cs)).map Decimal.toFloat := by
  obtain ⟨hinf, hnan, hplus, hminus⟩ := plain_of_first h
  have hsigned : signed (c :: cs) = (false, c :: cs) := by
    unfold signed
    split
    · next heq => exact absurd (List.cons.inj heq).1 hplus
    · next heq => exact absurd (List.cons.inj heq).1 hminus
    · rfl
  unfold float?
  rw [hsigned]
  dsimp only
  rw [List.map_cons, if_neg, if_neg]
  · cases decimal? (c :: cs) <;> rfl
  · intro hword
    exact hnan (List.cons.inj hword).1
  · rintro (hword | hword)
    · exact hinf (List.cons.inj hword).1
    · exact hinf (List.cons.inj hword).1

/-- The value that a numeral stands for. -/
inductive Denotes : Token.Kind → List Char → Value → Prop where
  | integer {ds : List Char} {n : Int64} (fits : numberOf ds ≤ 2 ^ 63 - 1)
      (same : n.toInt = numberOf ds) : Denotes .integer ds (.integer n)
  /-- An integer that does not fit is rounded. -/
  | rounded {ds : List Char} (large : 2 ^ 63 - 1 < numberOf ds) :
    Denotes .integer ds (.float (Decimal.toFloat ⟨numberOf ds, 0⟩))
  | float {text : List Char} {d : Decimal} (read : decimal? text = some d) :
    Denotes .float text (.float d.toFloat)

/-- Every numeral has the value that it stands for. -/
theorem numberValue?_numeral {kind : Token.Kind} {text : List Char} (h : Numeral kind text) :
    ∃ v, Denotes kind text v ∧ numberValue? kind (String.ofList text) = some v := by
  obtain ⟨c, cs, hfirst, hc⟩ := h.first
  have hfloat : float? text = (decimal? text).map Decimal.toFloat := by
    rw [hfirst]
    exact float?_of_first hc
  obtain ⟨hdigits, hpoint, hpower, hsome⟩ := h
  rename_i whole fraction exponent
  have hdecimal := decimal?_of_parts hdigits hpoint hpower hsome
  unfold numberValue?
  rw [String.toList_ofList, hfloat]
  by_cases hwhole : fraction = [] ∧ exponent = []
  · obtain ⟨rfl, rfl⟩ := hwhole
    rw [List.append_nil, List.append_nil] at hdecimal ⊢
    have hne : whole ≠ [] := hsome.resolve_right fun h => h rfl
    rw [if_pos ⟨rfl, rfl⟩, if_neg nofun, integer?_digits hne hdigits, hdecimal]
    cases hfit : Checked.fit (numberOf whole) with
    | some n =>
        obtain ⟨hsame, -, hrange⟩ := Checked.fit_eq_some_iff.1 hfit
        simp only [Checked.greatest] at hrange
        exact ⟨_, .integer (by omega) hsame, rfl⟩
    | none =>
        have hrange := Checked.fit_eq_none_iff.1 hfit
        simp only [Checked.least, Checked.greatest] at hrange
        exact ⟨_, .rounded (by omega), by simp [exponent?]⟩
  · rw [if_neg hwhole, if_pos rfl, hdecimal]
    obtain ⟨e, he⟩ := exists_exponent? hpower
    rw [he] at hdecimal ⊢
    exact ⟨_, .float hdecimal, rfl⟩

theorem classify_numeral {kind : Token.Kind} {text : List Char} (h : Numeral kind text)
    (place : Place) : ∃ v, Denotes kind text v
      ∧ classify ⟨kind, String.ofList text, place⟩ = .ok (some (.constant, v)) := by
  obtain ⟨v, hdenotes, hvalue⟩ := numberValue?_numeral h
  refine ⟨v, hdenotes, ?_⟩
  unfold classify
  cases hdenotes <;> rw [hvalue]

end Expr

end Formula
