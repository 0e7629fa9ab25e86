/-
Why the text of an expression is refused. The lexer fails only where the end of a
comment or a quoted text is missing, the symbols only where a token means nothing,
and the readers only for a few causes of their own (`refusal_of_ofText`).

No token fails as a number. All tokens are read lexeme by lexeme (`mem_raw`), the
lexemes of numbers are numerals (`numeral_of_lexeme`), and every numeral has a value.
So numbers are read by longest match and never refused (`numbers_never_refused`).
-/
import Formula.Proofs.Expr.Descent
import Formula.Proofs.Expr.Numerals
import Formula.Proofs.Expr.Viable
import Formula.Proofs.Lex.Options

namespace Formula

namespace Lexer

variable {lx : Lexer} {cur after : Cursor} {t : Token} {ts : List Token} {fault : Fault}

-- ============================================================= raw tokens

theorem exists_lexeme_of_read (h : lx.read cur = (.ok t, after)) (ht : t.kind ≠ .eof) :
    ∃ c r l, lx.lexeme c r = .ok l ∧ t = Lexeme.token l cur.place := by
  unfold read at h
  split at h
  · cases h
    exact absurd rfl ht
  · next c r _ =>
    split at h
    · next l hl =>
      cases h
      exact ⟨c, r, l, hl, rfl⟩
    · cases h

theorem unterminated_of_read (h : lx.read cur = (.error fault, after)) :
    fault.cause.Unterminated := by
  unfold read at h
  split at h
  · cases h
  · split at h
    · cases h
    · next hl =>
      cases h
      exact unterminated_of_lexeme hl

/-- Each raw token is the token of a lexeme, or says that the text is over. -/
theorem mem_raw (h : lx.raw cur = .ok ts) (hmem : t ∈ ts) :
    t.kind = .eof ∨ ∃ c r l place, lx.lexeme c r = .ok l ∧ t = Lexeme.token l place := by
  fun_induction raw lx cur generalizing ts with
  | case1 => cases h
  | case2 cur u after hread hu =>
      cases h
      exact .inl (List.mem_singleton.1 hmem ▸ hu)
  | case3 cur u after hread hu ih =>
      cases hmore : lx.raw after with
      | error fault => rw [hmore] at h; cases h
      | ok more =>
          rw [hmore] at h
          cases h
          rcases List.mem_cons.1 hmem with rfl | hmem
          · obtain ⟨c, r, l, hl, rfl⟩ := exists_lexeme_of_read hread hu
            exact .inr ⟨c, r, l, cur.place, hl, rfl⟩
          · exact ih hmore hmem

/-- The raw tokens of a text are missing only for want of an end. -/
theorem unterminated_of_raw (h : lx.raw cur = .error fault) : fault.cause.Unterminated := by
  fun_induction raw lx cur with
  | case1 cur fault' after hread =>
      cases h
      exact unterminated_of_read hread
  | case2 => cases h
  | case3 cur u after hread hu ih =>
      cases hmore : lx.raw after with
      | error fault' =>
          rw [hmore] at h
          cases h
          exact ih hmore
      | ok more => rw [hmore] at h; cases h

-- ================================================== tokens of expressions

/-- The lexer of expressions reads the raw tokens, decodes those that are quoted and
drops some. -/
theorem tokens_expression (text : String) :
    expression.tokens text = (expression.raw (.start text)).map fun ts =>
      (ts.filter fun t => !expression.options.drops t.kind).map expression.finish := by
  rw [tokens_eq, collect_eq_raw]
  cases expression.raw (.start text) <;> rfl

theorem mem_tokens_expression {text : String} (h : expression.tokens text = .ok ts)
    (hmem : t ∈ ts) : ∃ u, t = expression.finish u
      ∧ (u.kind = .eof ∨ ∃ c r l place, expression.lexeme c r = .ok l
        ∧ u = Lexeme.token l place) := by
  rw [tokens_expression] at h
  cases hraw : expression.raw (.start text) with
  | error fault => rw [hraw] at h; cases h
  | ok raws =>
      rw [hraw] at h
      cases h
      obtain ⟨u, hu, rfl⟩ := List.mem_map.1 hmem
      exact ⟨u, rfl, mem_raw hraw (List.mem_filter.1 hu).1⟩

theorem unterminated_of_tokens {text : String} (h : expression.tokens text = .error fault) :
    fault.cause.Unterminated := by
  rw [tokens_expression] at h
  cases hraw : expression.raw (.start text) with
  | error fault' =>
      rw [hraw] at h
      cases h
      exact unterminated_of_raw hraw
  | ok raws => rw [hraw] at h; cases h

theorem finish_expression (ht : t.kind ≠ .quoted) : expression.finish t = t := by
  unfold finish
  split
  · rfl
  · rfl
  · rfl
  · next hquoted => exact absurd hquoted ht
  · rfl

theorem kind_finish_expression (ht : t.kind = .quoted) : (expression.finish t).kind = .quoted := by
  unfold finish
  rw [ht]
  dsimp only
  split
  · rfl
  · exact ht

end Lexer

namespace Expr

open Lexer (expression)

/-- All symbols of expressions are of one kind. -/
theorem eq_symbol_of_mem_kinds {kind : Token.Kind}
    (h : kind ∈ (Rule.symbols (expression.symbols.getD .leaf)).kinds) : kind = .symbol := by
  rcases List.mem_cons.1 h with rfl | hmem
  · rfl
  · obtain ⟨s, hs, rfl⟩ := Symbols.mem_of_mem_values_ofList hmem
    obtain ⟨text, -, rfl⟩ := List.mem_map.1 hs
    rfl

/-- Whether a token of a kind is read as a number. -/
def IsNumber (kind : Token.Kind) : Prop := kind = .integer ∨ kind = .float ∨ kind = .number

/-- The lexemes of numbers are numerals. -/
theorem numeral_of_lexeme {c : Char} {r : List Char} {l : Lexeme}
    (h : expression.lexeme c r = .ok l) (hkind : IsNumber l.kind) : Numeral l.kind l.text := by
  have hother {kinds : List Token.Kind} (hmem : l.kind ∈ kinds)
      (hkinds : ∀ kind ∈ kinds, ¬IsNumber kind) : Numeral l.kind l.text :=
    absurd hkind (hkinds _ hmem)
  have hsymbol (hmem : l.kind ∈ (Rule.symbols (expression.symbols.getD .leaf)).kinds) :
      Numeral l.kind l.text := by
    rw [eq_symbol_of_mem_kinds hmem] at hkind
    simp [IsNumber] at hkind
  rcases Lexer.cut_of_lexeme h with rfl | ⟨rule, ⟨role, hrole, hrule⟩ | rfl, hcut⟩
  · simp [IsNumber, Lexeme.plain] at hkind
  · cases role with
    | number =>
        rw [lexeme_number hrole] at h
        cases h
        unfold numberOrSymbol at hsymbol ⊢
        rcases read_longest (c :: r) with ⟨kind, text, hlongest, hread⟩ | ⟨-, hread⟩
        · rw [hread]
          exact hlongest.numeral
        · rw [hread] at hsymbol ⊢
          exact hsymbol (Rule.cuts_of_symbols _ _).kind
    | comment => cases hrule; exact hother hcut.kind (by simp [Rule.kinds, IsNumber])
    | quote => cases hrule; exact hother hcut.kind (by simp [Rule.kinds, IsNumber])
    | symbol => cases hrule; exact hsymbol hcut.kind
    | whitespace => cases hrule; exact hother hcut.kind (by simp [Rule.kinds, IsNumber])
    | word => cases hrule; exact hother hcut.kind (by simp [Rule.kinds, IsNumber])
  · exact hsymbol hcut.kind

-- ============================================================== the causes

/-- What the text of an expression is refused for. -/
inductive Refusal : Cause → Prop
  | unterminated {cause : Cause} (h : cause.Unterminated) : Refusal cause
  | unknownSymbol (text : String) : Refusal (.unknownSymbol text)
  | halt {cause : Cause} (h : HaltCause cause) : Refusal cause
  | leftover (text : String) : Refusal (.leftover text)

theorem Refusal.ne_invalidNumber {cause : Cause} (h : Refusal cause) (text : String) :
    cause ≠ .invalidNumber text := by
  rintro rfl
  rcases h with (h | ⟨q, h⟩) | _ | ⟨h⟩ | _
  · cases h
  · cases h
  · cases h

/-- A token is refused as what it is. -/
theorem classify_cases {t : Token} {cause : Cause} (h : classify t = .error cause) :
    cause = .unknownSymbol t.text ∨ IsNumber t.kind := by
  unfold classify at h
  split at h
  · cases h
  · cases h
  · cases h
  · cases h
  · cases h
  · cases h
  · next hkind => exact .inr (.inl hkind)
  · next hkind => exact .inr (.inr (.inl hkind))
  · next hkind => exact .inr (.inr (.inr hkind))
  · cases h
  · split at h
    · cases h
    · cases h
      exact .inl rfl
  · cases h
    exact .inl rfl
  · cases h
    exact .inl rfl
  · cases h
    exact .inl rfl

/-- No token of an expression is refused as a number. -/
theorem refusal_of_classify {c : Char} {r : List Char} {l : Lexeme} {place : Place} {cause : Cause}
    (h : expression.lexeme c r = .ok l)
    (hrefused : classify (expression.finish (Lexer.Lexeme.token l place)) = .error cause) :
    Refusal cause := by
  rcases classify_cases hrefused with rfl | hnumber
  · exact .unknownSymbol _
  · by_cases hquoted : l.kind = .quoted
    · rw [Lexer.kind_finish_expression hquoted] at hnumber
      simp [IsNumber] at hnumber
    · rw [Lexer.finish_expression hquoted] at hrefused hnumber
      obtain ⟨v, -, hvalue⟩ := classify_numeral (numeral_of_lexeme h hnumber) place
      have htoken : Lexer.Lexeme.token l place = ⟨l.kind, String.ofList l.text, place⟩ := rfl
      rw [htoken, hvalue] at hrefused
      cases hrefused

/-- Symbols are refused for one of their tokens. -/
theorem exists_of_symbols {ts : List Token} {fault : Fault} (h : symbols ts = .error fault) :
    ∃ t ∈ ts, classify t = .error fault.cause := by
  induction ts with
  | nil => cases h
  | cons t ts ih =>
      have hlater (h : symbols ts = .error fault) :
          ∃ u ∈ t :: ts, classify u = .error fault.cause := by
        obtain ⟨u, hu, hcause⟩ := ih h
        exact ⟨u, List.mem_cons_of_mem t hu, hcause⟩
      rw [symbols] at h
      split at h
      · next cause hcause =>
        cases h
        exact ⟨t, List.mem_cons_self, hcause⟩
      · exact hlater h
      · cases hmore : symbols ts with
        | ok more => rw [hmore] at h; cases h
        | error fault' =>
            rw [hmore] at h
            cases h
            exact hlater hmore

/-- What fails in two steps fails in one of them. -/
theorem bind_eq_error {α β : Type} {x : Except Fault α} {f : α → Except Fault β} {fault : Fault}
    (h : x >>= f = .error fault) : x = .error fault ∨ ∃ a, x = .ok a ∧ f a = .error fault := by
  cases x with
  | error fault' =>
      cases h
      exact .inl rfl
  | ok a => exact .inr ⟨a, rfl, h⟩

/-- The text of an expression is refused for want of an end, for a token without
meaning, or where the readers stop. -/
theorem refusal_of_ofText {text : String} {fault : Fault}
    (h : Compiled.ofText text = .error fault) : Refusal fault.cause := by
  rcases bind_eq_error h with htokens | ⟨tokens, htokens, h⟩
  · exact .unterminated (Lexer.unterminated_of_tokens htokens)
  rcases bind_eq_error h with hsymbols | ⟨ss, -, h⟩
  · obtain ⟨t, ht, hcause⟩ := exists_of_symbols hsymbols
    obtain ⟨u, rfl, heof | ⟨c, r, l, place, hl, rfl⟩⟩ := Lexer.mem_tokens_expression htokens ht
    · rw [Lexer.finish_expression (by simp [heof]), classify, heof] at hcause
      cases hcause
    · exact refusal_of_classify hl hcause
  rcases bind_eq_error h with htree | ⟨t, -, h⟩
  · obtain ⟨halt, ⟨-, -, -, -, -, hcause, -⟩, rfl⟩ | ⟨-, s, -, -, -, -, rfl⟩ := tree_cases htree
    · exact .halt hcause
    · exact .leftover _
  · cases h

-- ============================================================== numbers

/-- Numbers are read by longest match and never refused. Where the rule for numbers reads,
it takes the longest numeral in front of it, an integer or a float by its form, and a symbol
where there is none. Expressions are read so at digits and points. Each numeral has the value
that it stands for, so that no text is refused for a number. -/
theorem numbers_never_refused :
    (∀ (lx : Lexer) (cur : Cursor),
      ReadAsNumber { lx with numbers := some (.numbers .scientific) } cur
        ({ lx with numbers := some (.numbers .scientific) }.readWith .number cur))
    ∧ (∀ (cur : Cursor) (c : Char) (r : List Char), cur.rest = c :: r →
        isDigit c = true ∨ c = '.' → ∃ t after,
          ReadAsNumber expression cur (.ok (some t), after) ∧ expression.read cur = (.ok t, after))
    ∧ (∀ kind kind' text, Numeral kind text → Numeral kind' text → kind = kind')
    ∧ (∀ kind text place, Numeral kind text → ∃ v, Denotes kind text v
        ∧ classify ⟨kind, String.ofList text, place⟩ = .ok (some (.constant, v)))
    ∧ ∀ (p : Parser) (text number : String),
        (p.parse (.text text)).1.map Fault.cause ≠ some (.invalidNumber number) := by
  refine ⟨fun lx cur => ?_, fun cur c r hrest hc => ?_, fun kind kind' text => Numeral.kind_unique,
    fun kind text place h => classify_numeral h place, fun p text number hrefused => ?_⟩
  · exact readAsNumber_numberOrSymbol { lx with numbers := some (.numbers .scientific) } cur
  · refine ⟨_, _, readAsNumber_numberOrSymbol expression cur, ?_⟩
    unfold Lexer.read
    rw [hrest]
    dsimp only
    rw [lexeme_number (Lexer.find?_expression_number hc)]
  · rw [(Parser.parse_eq p (.text text)).1] at hrefused
    cases hcompiled : Compiled.ofInput (.text text) with
    | ok compiled => rw [hcompiled] at hrefused; cases hrefused
    | error fault =>
        rw [hcompiled] at hrefused
        exact (refusal_of_ofText hcompiled).ne_invalidNumber number (Option.some.inj hrefused)

/-- An exponent that has no digits is not taken, and the least integer that does not fit
is rounded. -/
theorem numbers_never_refused_rounded :
    let cur := Cursor.start "2.5e+"
    let large := digitsOf 9223372036854775808
    cur.rest = '2' :: ".5e+".toList ∧ isDigit '2' = true
    ∧ (∃ t after, ReadAsNumber expression cur (.ok (some t), after)
        ∧ expression.read cur = (.ok t, after))
    ∧ Numeral .integer large
    ∧ ∃ v, Denotes .integer large v
        ∧ classify ⟨.integer, String.ofList large, .origin⟩ = .ok (some (.constant, v)) := by
  intro cur large
  have hlarge : Numeral .integer large := by
    have hparts := @Numeral.parts large [] [] (fun d => isDigit_of_mem_digitsOf) (.inl rfl)
      (.inl rfl) (.inl (digitsOf_ne_nil _))
    simpa using hparts
  refine ⟨rfl, by decide, ?_, hlarge, ?_⟩
  · exact numbers_never_refused.2.1 cur '2' _ rfl (.inl (by decide))
  · exact numbers_never_refused.2.2.2.1 .integer large .origin hlarge

end Expr

end Formula
