/-
Values as JSON and back. JSON has no form for infinities and NaN, so wherever
one stands in a value, null comes back (`Value.finite`). Everything else comes
back as it was: integers and floats do not change places, and items and members
keep their order and their names. The other way round, JSON comes back as it was
if 64 bits hold every integer in it.

Main statement: `conversions_inverse`. It also says that values make no JSON but
such as comes back. Both directions follow the shape of what is converted,
together with its items and its members.
-/
import Mathlib.Algebra.Ring.Int.Defs
import Formula.Json.Basic

namespace Formula

-- ========================================================== what is lost

namespace Value

mutual

/-- A value with null in place of every infinity and NaN. -/
def finite : Value → Value
  | .null => .null
  | .boolean b => .boolean b
  | .integer n => .integer n
  | .float x => if x.isFinite then .float x else .null
  | .string s => .string s
  | .array items => .array (finiteItems items)
  | .object fields => .object (finiteFields fields)

/-- Items with null in place of every infinity and NaN. -/
def finiteItems : List Value → List Value
  | [] => []
  | v :: vs => v.finite :: finiteItems vs

/-- Members with null in place of every infinity and NaN. -/
def finiteFields : List (String × Value) → List (String × Value)
  | [] => []
  | (n, v) :: vs => (n, v.finite) :: finiteFields vs

end

end Value

namespace Json

/-- `k` stands somewhere in a JSON value, at any depth. -/
inductive Inside (k : Json) : Json → Prop
  | self : Inside k k
  | item {items : List Json} {j : Json} : j ∈ items → Inside k j → Inside k (.array items)
  | member {fields : List (String × Json)} {m : String × Json} :
    m ∈ fields → Inside k m.2 → Inside k (.object fields)

/-- Whether every float in a JSON value is finite. JSON has no other ones. -/
def Finite (j : Json) : Prop := ∀ x, Inside (.float x) j → x.isFinite = true

/-- Whether 64 bits hold every integer in a JSON value, one of them for the
sign. -/
def Fits (j : Json) : Prop := ∀ n, Inside (.integer n) j → -2 ^ 63 ≤ n ∧ n ≤ 2 ^ 63 - 1

-- ============================================================ being inside

section

variable {items : List Json} {fields : List (String × Json)}

/-- Floats inside an array are inside its items. -/
theorem finite_array : Finite (.array items) ↔ ∀ j ∈ items, j.Finite := by
  constructor
  · exact fun h j hj x hx => h x (.item hj hx)
  · intro h x hx
    cases hx with
    | item hj hx => exact h _ hj x hx

/-- Floats inside an object are inside its members. -/
theorem finite_object : Finite (.object fields) ↔ ∀ m ∈ fields, m.2.Finite := by
  constructor
  · exact fun h m hm x hx => h x (.member hm hx)
  · intro h x hx
    cases hx with
    | member hm hx => exact h _ hm x hx

theorem finite_float {x : Float} : Finite (.float x) ↔ x.isFinite = true := by
  constructor
  · exact fun h => h x .self
  · intro h y hy
    cases hy
    exact h

/-- Integers inside an array are inside its items. -/
theorem fits_array : Fits (.array items) ↔ ∀ j ∈ items, j.Fits := by
  constructor
  · exact fun h j hj n hn => h n (.item hj hn)
  · intro h n hn
    cases hn with
    | item hj hn => exact h _ hj n hn

/-- Integers inside an object are inside its members. -/
theorem fits_object : Fits (.object fields) ↔ ∀ m ∈ fields, m.2.Fits := by
  constructor
  · exact fun h m hm n hn => h n (.member hm hn)
  · intro h n hn
    cases hn with
    | member hm hn => exact h _ hm n hn

theorem fits_integer {n : Int} : Fits (.integer n) ↔ -2 ^ 63 ≤ n ∧ n ≤ 2 ^ 63 - 1 := by
  constructor
  · exact fun h => h n .self
  · intro h m hm
    cases hm
    exact h

end

-- ========================================================== JSON and back

/-- An integer that 64 bits hold stays an integer. -/
theorem ofValue_integerValue {n : Int} (h : -2 ^ 63 ≤ n ∧ n ≤ 2 ^ 63 - 1) :
    ofValue (integerValue n) = .integer n := by
  have hfits : Checked.least ≤ n ∧ n ≤ Checked.greatest := h
  have hfit : Checked.fit n = some (Int64.ofInt n) := if_pos hfits
  have hword : (Int64.ofInt n).toInt = n := (Checked.fit_eq_some_iff.1 hfit).1
  unfold integerValue
  rw [hfit]
  show Json.integer (Int64.ofInt n).toInt = _
  rw [hword]

mutual

/-- JSON with integers that 64 bits hold comes back as it was. -/
theorem ofValue_toValue (j : Json) (hfinite : j.Finite) (hfits : j.Fits) :
    ofValue (toValue j) = j := by
  cases j with
  | null => rfl
  | boolean b => rfl
  | integer n => exact ofValue_integerValue (fits_integer.1 hfits)
  | float x => exact if_pos (finite_float.1 hfinite)
  | string s => rfl
  | array items =>
      rw [toValue, ofValue,
        ofItems_toItems items (finite_array.1 hfinite) (fits_array.1 hfits)]
  | object fields =>
      rw [toValue, ofValue,
        ofFields_toFields fields (finite_object.1 hfinite) (fits_object.1 hfits)]

theorem ofItems_toItems (js : List Json) (hfinite : ∀ j ∈ js, j.Finite)
    (hfits : ∀ j ∈ js, j.Fits) : ofItems (toItems js) = js := by
  cases js with
  | nil => rfl
  | cons j js =>
      rw [toItems, ofItems,
        ofValue_toValue j (hfinite j List.mem_cons_self) (hfits j List.mem_cons_self),
        ofItems_toItems js (fun k hk => hfinite k (List.mem_cons_of_mem j hk))
          (fun k hk => hfits k (List.mem_cons_of_mem j hk))]

theorem ofFields_toFields (ms : List (String × Json)) (hfinite : ∀ m ∈ ms, m.2.Finite)
    (hfits : ∀ m ∈ ms, m.2.Fits) : ofFields (toFields ms) = ms := by
  cases ms with
  | nil => rfl
  | cons m ms =>
      rw [toFields, ofFields,
        ofValue_toValue m.2 (hfinite m List.mem_cons_self) (hfits m List.mem_cons_self),
        ofFields_toFields ms (fun k hk => hfinite k (List.mem_cons_of_mem m hk))
          (fun k hk => hfits k (List.mem_cons_of_mem m hk))]

end

-- ========================================================= values and back

mutual

/-- A value comes back without its infinities and NaNs, and else as it was. -/
theorem toValue_ofValue (v : Value) : toValue (ofValue v) = v.finite := by
  cases v with
  | null => rfl
  | boolean b => rfl
  | integer n =>
      show integerValue n.toInt = _
      rw [integerValue, Checked.fit_toInt]
      rfl
  | float x =>
      rw [ofValue, Value.finite]
      split
      · rfl
      · rfl
  | string s => rfl
  | array items => rw [ofValue, toValue, Value.finite, toItems_ofItems items]
  | object fields => rw [ofValue, toValue, Value.finite, toFields_ofFields fields]

theorem toItems_ofItems (vs : List Value) : toItems (ofItems vs) = Value.finiteItems vs := by
  cases vs with
  | nil => rfl
  | cons v vs => rw [ofItems, toItems, Value.finiteItems, toValue_ofValue v, toItems_ofItems vs]

theorem toFields_ofFields (vs : List (String × Value)) :
    toFields (ofFields vs) = Value.finiteFields vs := by
  cases vs with
  | nil => rfl
  | cons v vs =>
      rw [ofFields, toFields, Value.finiteFields, toValue_ofValue v.2, toFields_ofFields vs]

end

-- ====================================================== what values make

/-- A word is a number that 64 bits hold. -/
theorem fits_word (n : Int64) : -2 ^ 63 ≤ n.toInt ∧ n.toInt ≤ 2 ^ 63 - 1 :=
  ⟨n.le_toInt, Int.le_sub_one_of_lt n.toInt_lt⟩

mutual

/-- A number inside what a value makes is finite and fits. -/
theorem exact_ofValue (v : Value) : (ofValue v).Finite ∧ (ofValue v).Fits := by
  cases v with
  | null => exact ⟨fun _ => nofun, fun _ => nofun⟩
  | boolean b => exact ⟨fun _ => nofun, fun _ => nofun⟩
  | string s => exact ⟨fun _ => nofun, fun _ => nofun⟩
  | integer m => exact ⟨fun _ => nofun, fits_integer.2 (fits_word m)⟩
  | float x =>
      rw [ofValue]
      split
      · next hx => exact ⟨finite_float.2 hx, fun _ => nofun⟩
      · exact ⟨fun _ => nofun, fun _ => nofun⟩
  | array items =>
      have hitems := exact_ofItems items
      rw [ofValue]
      exact ⟨finite_array.2 fun j hj => (hitems j hj).1, fits_array.2 fun j hj => (hitems j hj).2⟩
  | object fields =>
      have hfields := exact_ofFields fields
      rw [ofValue]
      exact ⟨finite_object.2 fun m hm => (hfields m hm).1,
        fits_object.2 fun m hm => (hfields m hm).2⟩

theorem exact_ofItems (vs : List Value) : ∀ j ∈ ofItems vs, j.Finite ∧ j.Fits := by
  cases vs with
  | nil => exact nofun
  | cons v vs =>
      rw [ofItems]
      exact List.forall_mem_cons.2 ⟨exact_ofValue v, exact_ofItems vs⟩

theorem exact_ofFields (vs : List (String × Value)) :
    ∀ m ∈ ofFields vs, m.2.Finite ∧ m.2.Fits := by
  cases vs with
  | nil => exact nofun
  | cons v vs =>
      rw [ofFields]
      exact List.forall_mem_cons.2 ⟨exact_ofValue v.2, exact_ofFields vs⟩

end

-- =============================================================== inverses

/-- Values survive as JSON but for their infinities and NaNs, in place of which
null comes back. JSON survives as a value if 64 bits hold every integer in it,
and in what values make they do. -/
theorem conversions_inverse :
    (∀ v : Value, toValue (ofValue v) = v.finite)
      ∧ (∀ j : Json, j.Finite → j.Fits → ofValue (toValue j) = j)
      ∧ ∀ v : Value, (ofValue v).Finite ∧ (ofValue v).Fits :=
  ⟨toValue_ofValue, ofValue_toValue, exact_ofValue⟩

/-- The integers at both ends, one of them in an array beside a float without a
fraction, the other one two objects deep. -/
theorem conversions_inverse_ends :
    let j : Json := .object [("a", .array [.integer (2 ^ 63 - 1), .float 2.0, .null]),
      ("b", .object [("c", .integer (-2 ^ 63))])]
    j.Finite ∧ j.Fits ∧ ofValue (toValue j) = j := by
  intro j
  have hfloat : (2.0 : Float).isFinite = true := by decide
  have hfinite : j.Finite := by
    have hnull : Finite .null := fun _ => nofun
    have hinteger (n : Int) : Finite (.integer n) := fun _ => nofun
    simp [j, finite_object, finite_array, finite_float, hnull, hinteger, hfloat]
  have hfits : j.Fits := by
    have hnull : Fits .null := fun _ => nofun
    have hfloats (x : Float) : Fits (.float x) := fun _ => nofun
    simp [j, fits_object, fits_array, fits_integer, hnull, hfloats]
  exact ⟨hfinite, hfits, conversions_inverse.2.1 j hfinite hfits⟩

end Json

end Formula
