/-
Which characters have which role in the lexers of expressions and of tags,
said of the characters and not of the ranges the lexers are made of.
-/
import Formula.Expr.Lexer
import Formula.Proofs.Text.CharMap
import Formula.Template.Lexer

namespace Formula

namespace Lexer

variable {c : Char}

-- ============================================================== classes

/-- The characters that words of expressions begin with. -/
def isInitial (c : Char) : Bool :=
  ('a' ≤ c && c ≤ 'z') || ('A' ≤ c && c ≤ 'Z') || c == '_' || c == '$'
    || ('\u00c0' ≤ c && c ≤ '\ufffe')

/-- The characters of words in tags. -/
def isTagLetter (c : Char) : Bool :=
  ('a' ≤ c && c ≤ 'z') || ('A' ≤ c && c ≤ 'Z') || isDigit c || c == '_' || c == '.' || c == '-'
    || ('\u00c0' ≤ c && c ≤ '\ufffe')

-- =============================================================== blanks

theorem not_le_of_blank {d : Char} (hc : c ≤ ' ') (hd : ' ' < d) : ¬d ≤ c :=
  fun h => absurd (Nat.le_trans h hc) (Nat.not_le.2 hd)

theorem ne_of_blank {d : Char} (hc : c ≤ ' ') (hd : ' ' < d) : c ≠ d :=
  fun h => not_le_of_blank hc hd (h ▸ Nat.le_refl _)

theorem isDigit_of_blank (h : c ≤ ' ') : isDigit c = false := by
  have hzero : ¬ '0' ≤ c := not_le_of_blank h (by decide)
  simp [isDigit, hzero]

theorem isInitial_of_blank (h : c ≤ ' ') : isInitial c = false := by
  have hsmall : ¬ 'a' ≤ c := not_le_of_blank h (by decide)
  have hcapital : ¬ 'A' ≤ c := not_le_of_blank h (by decide)
  have hline : c ≠ '_' := ne_of_blank h (by decide)
  have hdollar : c ≠ '$' := ne_of_blank h (by decide)
  have hforeign : ¬ '\u00c0' ≤ c := not_le_of_blank h (by decide)
  simp [isInitial, hsmall, hcapital, hline, hdollar, hforeign]

theorem isTagLetter_of_blank (h : c ≤ ' ') : isTagLetter c = false := by
  have hsmall : ¬ 'a' ≤ c := not_le_of_blank h (by decide)
  have hcapital : ¬ 'A' ≤ c := not_le_of_blank h (by decide)
  have hline : c ≠ '_' := ne_of_blank h (by decide)
  have hpoint : c ≠ '.' := ne_of_blank h (by decide)
  have hminus : c ≠ '-' := ne_of_blank h (by decide)
  have hforeign : ¬ '\u00c0' ≤ c := not_le_of_blank h (by decide)
  simp [isTagLetter, isDigit_of_blank h, hsmall, hcapital, hline, hpoint, hminus, hforeign]

theorem isInitial_of_isDigit (h : isDigit c = true) : isInitial c = false := by
  unfold isDigit at h
  rw [Bool.and_eq_true, decide_eq_true_iff, decide_eq_true_iff] at h
  have hsmall : ¬ 'a' ≤ c := fun hc => absurd (Nat.le_trans hc h.2) (by decide)
  have hcapital : ¬ 'A' ≤ c := fun hc => absurd (Nat.le_trans hc h.2) (by decide)
  have hforeign : ¬ '\u00c0' ≤ c := fun hc => absurd (Nat.le_trans hc h.2) (by decide)
  have hline : c ≠ '_' := by rintro rfl; exact absurd h.2 (by decide)
  have hdollar : c ≠ '$' := by rintro rfl; exact absurd h.1 (by decide)
  simp [isInitial, hsmall, hcapital, hforeign, hline, hdollar]

-- =============================================================== ranges

theorem covers_append (xs ys : List (Char × Char)) (c : Char) :
    CharMap.covers (xs ++ ys) c = (CharMap.covers xs c || CharMap.covers ys c) :=
  List.any_append

theorem covers_cons (a b : Char) (h : a ≤ b) (ranges : List (Char × Char)) (c : Char) :
    CharMap.covers ((a, b) :: ranges) c
      = ((a ≤ c && c ≤ b) || CharMap.covers ranges c) := by
  have hab : CharMap.between a b c = (decide (a ≤ c) && decide (c ≤ b)) := by
    rw [Bool.eq_iff_iff, CharMap.between_of_le h, Bool.and_eq_true, decide_eq_true_iff,
      decide_eq_true_iff]
  rw [CharMap.covers, List.any_cons, hab]
  rfl

theorem covers_cons_self (a : Char) (ranges : List (Char × Char)) (c : Char) :
    CharMap.covers ((a, a) :: ranges) c = (c == a || CharMap.covers ranges c) := by
  have ha : CharMap.between a a c = (c == a) := by
    rw [Bool.eq_iff_iff, CharMap.between_self, beq_iff_eq]
  rw [CharMap.covers, List.any_cons, ha]
  rfl

/-- The letters outside ASCII are one range in two parts. -/
theorem covers_foreignLetters (c : Char) :
    CharMap.covers foreignLetters c = ('\u00c0' ≤ c && c ≤ '\ufffe') := by
  have hjoin : ('\u00c0' ≤ c ∧ c ≤ '\u00ff' ∨ '\u0100' ≤ c ∧ c ≤ '\ufffe')
      ↔ '\u00c0' ≤ c ∧ c ≤ '\ufffe' := by
    show (0xC0 ≤ c.toNat ∧ c.toNat ≤ 0xFF ∨ 0x100 ≤ c.toNat ∧ c.toNat ≤ 0xFFFE)
      ↔ 0xC0 ≤ c.toNat ∧ c.toNat ≤ 0xFFFE
    omega
  unfold foreignLetters
  rw [covers_cons _ _ (by decide), covers_cons _ _ (by decide), Bool.eq_iff_iff]
  simpa [CharMap.covers] using hjoin

theorem covers_expressionInitials (c : Char) :
    CharMap.covers expressionInitials c = isInitial c := by
  unfold expressionInitials isInitial
  rw [covers_append, covers_foreignLetters, covers_cons _ _ (by decide),
    covers_cons _ _ (by decide), covers_cons_self, covers_cons_self]
  simp [CharMap.covers, Bool.or_assoc]

theorem covers_tagLetters (c : Char) :
    CharMap.covers Template.tagLetters c = isTagLetter c := by
  unfold Template.tagLetters isTagLetter isDigit
  rw [covers_append, covers_foreignLetters, covers_cons _ _ (by decide),
    covers_cons _ _ (by decide), covers_cons _ _ (by decide), covers_cons_self,
    covers_cons_self, covers_cons_self]
  simp [CharMap.covers, Bool.or_assoc]

/-- Words of expressions go on with initials and digits. -/
theorem contains_expressionLetters (c : Char) :
    expressionLetters.contains c = (isInitial c || isDigit c) := by
  unfold expressionLetters
  rw [CharClass.contains_ofRanges, covers_append, covers_foreignLetters,
    covers_cons _ _ (by decide), covers_cons _ _ (by decide), covers_cons _ _ (by decide),
    covers_cons_self, covers_cons_self]
  simp only [CharMap.covers, isInitial, isDigit, List.any_nil, Bool.or_false]
  ac_rfl

theorem contains_controlBlanks (c : Char) : controlBlanks.contains c = (c ≤ ' ' : Bool) := by
  unfold controlBlanks
  rw [CharClass.contains_ofRanges, covers_cons _ _ (by decide)]
  have hzero : '\x00' ≤ c := Nat.zero_le _
  simp [CharMap.covers, hzero]

-- ================================================================ roles

/-- The last role that some ranges are given counts. -/
theorem find?_rolesOf (entries : List (Char × Char × Role)) (role : Role)
    (ranges : List (Char × Char)) (c : Char) :
    (CharMap.ofList (entries ++ rolesOf role ranges)).find? c
      = if CharMap.covers ranges c then some role else (CharMap.ofList entries).find? c :=
  CharMap.find?_ofList_ranges entries ranges role c

/-- Without a role of its own, a character is blank up to the space and a
symbol beyond. -/
theorem find?_baseRoles (c : Char) :
    (CharMap.ofList baseRoles).find? c
      = if c ≤ ' ' then some .whitespace else if c ≤ '\ufffe' then some .symbol else none := by
  have hzero : '\x00' ≤ c := Nat.zero_le _
  have hbase : baseRoles
      = [] ++ rolesOf .symbol [('\x00', '\ufffe')] ++ rolesOf .whitespace [('\x00', ' ')] := rfl
  have hnone : (CharMap.ofList ([] : List (Char × Char × Role))).find? c = none := rfl
  rw [hbase, find?_rolesOf, find?_rolesOf, covers_cons _ _ (by decide),
    covers_cons _ _ (by decide), hnone]
  simp [CharMap.covers, hzero]

theorem find?_expression (c : Char) :
    expression.roles.find? c
      = if c = '/' then some .comment
        else if c = '"' ∨ c = '\'' then some .quote
        else if isDigit c ∨ c = '.' then some .number
        else if isInitial c then some .word
        else if c ≤ ' ' then some .whitespace
        else if c ≤ '\ufffe' then some .symbol
        else none := by
  unfold expression
  rw [find?_rolesOf, find?_rolesOf, find?_rolesOf, find?_rolesOf, find?_baseRoles,
    covers_expressionInitials, covers_cons_self, covers_cons_self, covers_cons_self,
    covers_cons _ _ (by decide), covers_cons_self]
  simp [CharMap.covers, isDigit]

theorem find?_expression_word (h : isInitial c = true) :
    expression.roles.find? c = some .word := by
  have hne {d : Char} (hd : isInitial d = false) : c ≠ d := by
    rintro rfl
    rw [h] at hd
    cases hd
  have hdigit : isDigit c = false := by
    cases hc : isDigit c with
    | false => rfl
    | true => rw [isInitial_of_isDigit hc] at h; cases h
  rw [find?_expression]
  simp [hne (d := '/') (by decide), hne (d := '"') (by decide), hne (d := '\'') (by decide),
    hne (d := '.') (by decide), hdigit, h]

theorem find?_expression_number (h : isDigit c = true ∨ c = '.') :
    expression.roles.find? c = some .number := by
  have hne {d : Char} (hd : isDigit d = false) (hpoint : d ≠ '.') : c ≠ d := by
    rintro rfl
    rcases h with h | h
    · rw [h] at hd
      cases hd
    · exact hpoint h
  rw [find?_expression]
  simp [hne (d := '/') (by decide) (by decide), hne (d := '"') (by decide) (by decide),
    hne (d := '\'') (by decide) (by decide), h]

theorem find?_expression_blank (h : c ≤ ' ') :
    expression.roles.find? c = some .whitespace := by
  have hne {d : Char} (hd : ' ' < d) : c ≠ d := ne_of_blank h hd
  rw [find?_expression]
  simp [hne (d := '/') (by decide), hne (d := '"') (by decide), hne (d := '\'') (by decide),
    hne (d := '.') (by decide), isDigit_of_blank h, isInitial_of_blank h, h]

theorem find?_tagLexer (c : Char) :
    Template.tagLexer.roles.find? c
      = if isTagLetter c then some .word
        else if c ≤ ' ' then some .whitespace
        else if c ≤ '\ufffe' then some .symbol
        else none := by
  unfold Template.tagLexer
  rw [find?_rolesOf, find?_baseRoles, covers_tagLetters]

end Lexer

end Formula
