/-
The six comparisons of values, with any coercion. Four of them look at the
order of two values; equality goes its own way and compares what the values
have become in one kind, part by part. Where there is an order, it is made of
the same two values, of one of the four kinds that have one, and in each of
these the values of the order `eq` are the same values (`same_of_compareAlike`).

Main statement: where the order of two values is found, or it is found that
there is none, all six comparisons answer, and they agree with one another
(`comparisons_agree`).
-/
import Formula.Proofs.Number.FloatOrder
import Formula.Value.Operations

namespace Formula.Coercion

open Value

variable {k : Coercion} {a b : Value} {o : Option Ordering}

-- ============================================================== one kind

theorem compareFloats_eq_iff {x y : Float} : compareFloats x y = some .eq ↔ (x == y) = true := by
  rw [floatEq_iff]
  unfold compareFloats
  by_cases hxy : x ≤ y
  · by_cases hyx : y ≤ x
    · simp [hxy, hyx]
    · simp [hxy, hyx]
  · by_cases hyx : y ≤ x
    · simp [hxy, hyx]
    · simp [hxy, hyx]

/-- Values of one kind that have an order are the same if it is `eq`. -/
theorem same_of_compareAlike (h : compareAlike a b = .ok o) : a.same b = (o == some .eq) := by
  unfold compareAlike at h
  split at h
  · next m n =>
    cases h
    rw [Bool.eq_iff_iff]
    simp [same, Int64.toInt_inj]
  · next x y =>
    cases h
    rw [Bool.eq_iff_iff, beq_iff_eq, compareFloats_eq_iff, same]
  · next s t =>
    cases h
    rw [Bool.eq_iff_iff]
    simp [same]
  · next p q =>
    cases h
    cases p <;> cases q <;> rfl
  · cases h

-- ================================================================ meeting

theorem isNumber_of_toFloat? {v : Value} {x : Float} (h : v.toFloat? = some x) :
    v.isNumber = true := by
  cases v with
  | integer n => rfl
  | float y => rfl
  | _ => cases h

/-- The order of values that are not both numbers is that of what they become
in one kind. -/
theorem order_of_meet (ha : a ≠ .null) (hb : b ≠ .null)
    (hnumbers : ¬(a.isNumber = true ∧ b.isNumber = true)) :
    k.order a b = k.meet a b >>= fun met => compareAlike met.1 met.2 := by
  have hnull : ¬(a.isNull || b.isNull) = true := by
    rw [Bool.or_eq_true, isNull_iff, isNull_iff]
    exact fun h => h.elim ha hb
  unfold order
  rw [if_neg hnull]
  split
  · exact absurd ⟨rfl, rfl⟩ hnumbers
  · split
    · next hx hy =>
      exact absurd ⟨isNumber_of_toFloat? hx, isNumber_of_toFloat? hy⟩ hnumbers
    · rfl

/-- Equality of values that are not both numbers is that of what they become in
one kind. -/
theorem equals_of_meet (ha : a ≠ .null) (hb : b ≠ .null)
    (hnumbers : ¬(a.isNumber = true ∧ b.isNumber = true)) :
    k.equals a b = k.meet a b >>= fun met => .ok (met.1.same met.2) := by
  unfold equals
  split
  · exact absurd rfl ha
  · exact absurd rfl ha
  · exact absurd rfl hb
  · rw [if_neg (by rwa [Bool.and_eq_true])]

/-- Equality of numbers is read off their order. -/
theorem equals_of_numbers (hnumbers : a.isNumber = true ∧ b.isNumber = true) :
    k.equals a b = (k.order a b).map (· == some .eq) := by
  unfold equals
  split
  · cases hnumbers.1
  · cases hnumbers.1
  · cases hnumbers.2
  · rw [if_pos (by rwa [Bool.and_eq_true])]

/-- Where an order is found, equality is what it says. -/
theorem equals_of_order (ha : a ≠ .null) (hb : b ≠ .null) (h : k.order a b = .ok o) :
    k.equals a b = .ok (o == some .eq) := by
  by_cases hnumbers : a.isNumber = true ∧ b.isNumber = true
  · rw [equals_of_numbers hnumbers, h]
    rfl
  · rw [order_of_meet ha hb hnumbers] at h
    rw [equals_of_meet ha hb hnumbers]
    cases hmeet : k.meet a b with
    | error fault =>
        rw [hmeet] at h
        cases h
    | ok met =>
        rw [hmeet] at h
        show Except.ok (met.1.same met.2) = _
        rw [same_of_compareAlike h]

-- ============================================================== answers

theorem ordered_of_order (h : k.order a b = .ok o) (wanted : Ordering → Bool) :
    k.ordered wanted a b = .ok (.boolean (o.any wanted)) := by
  unfold ordered
  rw [h]
  rfl

theorem equal_of_equals {answer : Bool} (h : k.equals a b = .ok answer) :
    k.equal a b = .ok (.boolean answer) := by
  unfold equal
  rw [h]
  rfl

theorem notEqual_of_equals {answer : Bool} (h : k.equals a b = .ok answer) :
    k.notEqual a b = .ok (.boolean !answer) := by
  unfold notEqual
  rw [h]
  rfl

-- ============================================================ main result

/-- What it is for the six comparisons to answer for two values in some order,
or in none, and to agree with one another. -/
structure Agree (ops : Operations) (a b : Value) (o : Option Ordering)
    (isLess isEqual isMore : Bool) : Prop where
  less : ops.binary .less a b = .ok (.boolean isLess)
  equal : ops.binary .equal a b = .ok (.boolean isEqual)
  more : ops.binary .more a b = .ok (.boolean isMore)
  notEqual : ops.binary .notEqual a b = .ok (.boolean !isEqual)
  lessEqual : ops.binary .lessEqual a b = .ok (.boolean (isLess || isEqual))
  moreEqual : ops.binary .moreEqual a b = .ok (.boolean (isMore || isEqual))
  /-- In an order, exactly one of the three holds. -/
  ordered : o ≠ none → [isLess, isEqual, isMore].count true = 1
  /-- In none, none of them does. -/
  unordered : o = none → isLess = false ∧ isEqual = false ∧ isMore = false

/-- The six comparisons agree with one another, with every coercion, on values
that are not null and whose order is found, or found not to exist. -/
theorem comparisons_agree (k : Coercion) {a b : Value} (ha : a ≠ .null) (hb : b ≠ .null)
    {o : Option Ordering} (h : k.order a b = .ok o) :
    Agree k.operations a b o (o == some .lt) (o == some .eq) (o == some .gt) := by
  have hequals := equals_of_order ha hb h
  have hordered := ordered_of_order h
  refine ⟨(hordered _).trans ?_, equal_of_equals hequals, (hordered _).trans ?_,
    notEqual_of_equals hequals, (hordered _).trans ?_, (hordered _).trans ?_, ?_, ?_⟩
  all_goals
    cases o with
    | none => simp
    | some o => cases o <;> simp

/-- A number and NaN, in no order, and a truth value and a text that means the
same, with the coercion that mixes kinds. -/
theorem comparisons_agree_nan :
    Agree lenient.operations (.integer 1) (.float (0.0 / 0.0)) none false false false
      ∧ Agree lenient.operations (.boolean true) (.string "yes") (some .eq) false true false := by
  have hnan : lenient.order (.integer 1) (.float (0.0 / 0.0)) = .ok none := rfl
  have hyes : lenient.order (.boolean true) (.string "yes") = .ok (some .eq) := rfl
  exact ⟨comparisons_agree lenient Value.noConfusion Value.noConfusion hnan,
    comparisons_agree lenient Value.noConfusion Value.noConfusion hyes⟩

end Formula.Coercion
