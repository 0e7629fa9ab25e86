/-
Decimal texts of integers. The digits of a number are digits
(`isDigit_of_mem_digitsOf`) and spell the number (`numberOf_digitsOf`).
Main statements: digits are read as the word for the number they spell, if
it has one (`integer?_digits`), and the decimal text of an integer as the word
for the integer (`integer?_integerText`).
-/
import Formula.Number.Reading

namespace Formula

-- ============================================================ one digit

theorem isDigit_eq (c : Char) : isDigit c = c.isDigit := rfl

theorem digitValue_digitChar {d : Nat} (h : d < 10) : digitValue (Nat.digitChar d) = d :=
  Nat.toNat_digitChar_sub_48_of_lt_ten h

-- ============================================================ all digits

/-- The last digit comes off the end. -/
theorem digitsOf_eq (n : Nat) :
    digitsOf n = if n < 10 then [Nat.digitChar n]
      else digitsOf (n / 10) ++ [Nat.digitChar (n % 10)] :=
  Nat.toDigits_eq_if (by decide)

theorem digitsOf_ne_nil (n : Nat) : digitsOf n ≠ [] := Nat.toDigits_ne_nil

theorem isDigit_of_mem_digitsOf {n : Nat} {d : Char} (h : d ∈ digitsOf n) : isDigit d = true := by
  rw [isDigit_eq]
  exact Nat.isDigit_of_mem_toDigits (by decide) (by decide) h

/-- One more digit makes ten times as much and the digit. -/
theorem numberOf_snoc (ds : List Char) (d : Char) :
    numberOf (ds ++ [d]) = 10 * numberOf ds + digitValue d := by
  unfold numberOf numberFrom
  rw [List.foldl_append]
  rfl

theorem numberOf_digitsOf (n : Nat) : numberOf (digitsOf n) = n := by
  induction n using Nat.strongRecOn with
  | ind n ih =>
      rw [digitsOf_eq]
      by_cases hn : n < 10
      · rw [if_pos hn]
        show 10 * 0 + digitValue (Nat.digitChar n) = n
        rw [digitValue_digitChar hn]
        omega
      · have hless : n / 10 < n := by omega
        have hdigit : n % 10 < 10 := by omega
        rw [if_neg hn, numberOf_snoc, ih _ hless, digitValue_digitChar hdigit]
        omega

-- =============================================================== reading

/-- A digit is no sign. -/
theorem signed_digits {ds : List Char} (h : ∀ d ∈ ds, isDigit d = true) :
    signed ds = (false, ds) := by
  unfold signed
  split
  · cases h '+' (List.mem_cons_self ..)
  · cases h '-' (List.mem_cons_self ..)
  · rfl

/-- Digits are read as the word for the number they spell. -/
theorem integer?_digits {ds : List Char} (hne : ds ≠ []) (h : ∀ d ∈ ds, isDigit d = true) :
    integer? ds = Checked.fit (numberOf ds) := by
  have hall : ds.all isDigit = true := List.all_eq_true.2 h
  unfold integer?
  rw [signed_digits h]
  exact if_pos ⟨hne, hall⟩

/-- The decimal text of an integer is read as the word for it. -/
theorem integer?_integerText (n : Int) : integer? (integerText n) = Checked.fit n := by
  have hdigits : ∀ d ∈ digitsOf n.natAbs, isDigit d = true := fun d => isDigit_of_mem_digitsOf
  unfold integerText
  by_cases hn : n < 0
  · rw [if_pos hn]
    show (if digitsOf n.natAbs ≠ [] ∧ (digitsOf n.natAbs).all isDigit = true then
      Checked.fit (-(numberOf (digitsOf n.natAbs) : Int)) else none) = _
    rw [if_pos ⟨digitsOf_ne_nil _, List.all_eq_true.2 hdigits⟩, numberOf_digitsOf]
    exact congrArg Checked.fit (by omega)
  · rw [if_neg hn, integer?_digits (digitsOf_ne_nil _) hdigits, numberOf_digitsOf]
    exact congrArg Checked.fit (by omega)

-- ==================================================== the decimal text

theorem integerText_ne_nil (n : Int) : integerText n ≠ [] := by
  unfold integerText
  split
  · exact List.cons_ne_nil _ _
  · exact digitsOf_ne_nil _

theorem eq_minus_or_isDigit_of_mem_integerText {n : Int} {c : Char} (h : c ∈ integerText n) :
    c = '-' ∨ isDigit c = true := by
  unfold integerText at h
  split at h
  · exact (List.mem_cons.1 h).imp id isDigit_of_mem_digitsOf
  · exact .inr (isDigit_of_mem_digitsOf h)

end Formula
