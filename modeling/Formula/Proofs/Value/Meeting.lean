/-
How the lenient coercion brings values together. A conversion gives a value of
the kind asked for or is refused, and only objects and numbers are ever
refused (`convertLenient_cases`). So two conversions, one each way, are both
refused only between an object and a number (`Clash`).

Main statement: values that do not clash meet in one kind, with one of them as
it was; equality fails for nothing else, and values that are neither arrays nor
objects can always be compared (`lenient_meets`).
-/
import Formula.Proofs.Value.Comparisons

namespace Formula.Coercion

open Value

variable {a b x y : Value}

/-- One value is an object and the other one a number. -/
def Clash (a b : Value) : Prop :=
  a.kind = .object ∧ b.isNumber = true ∨ a.isNumber = true ∧ b.kind = .object

/-- Values that hold no others. -/
def Single (v : Value) : Prop := v.kind ≠ .array ∧ v.kind ≠ .object

/-- A result fails as what it is made of does. -/
theorem map_fails_iff {α β : Type} {x : Except Fault α} {f : α → β} {fault : Fault} :
    x.map f = .error fault ↔ x = .error fault := by
  cases x <;> simp [Except.map]

-- ============================================================ conversions

/-- The kinds of numbers. -/
theorem isNumber_iff {v : Value} : v.isNumber = true ↔ v.kind = .integer ∨ v.kind = .float := by
  cases v <;> simp [isNumber, kind]

/-- Everything that a conversion can do. -/
theorem convertLenient_cases (v : Value) (target : Kind) :
    (∃ w, convertLenient v target = .ok w ∧ w.kind = target)
      ∨ convertLenient v target = .error (refuse v target)
        ∧ (target = .object ∧ v.kind ≠ .object
          ∨ (target = .integer ∨ target = .float) ∧ v.isNumber = false) := by
  unfold convertLenient
  by_cases hkind : v.kind = target
  · exact .inl ⟨v, if_pos hkind, hkind⟩
  rw [if_neg hkind]
  cases target with
  | null | boolean | string | array =>
      left
      cases v <;> exact ⟨_, rfl, rfl⟩
  | integer =>
      cases v with
      | string s =>
          cases hread : integerOf? s with
          | none => exact .inr ⟨by simp [convertLenient?, hread], .inr ⟨.inl rfl, rfl⟩⟩
          | some n => exact .inl ⟨.integer n, by simp [convertLenient?, hread], rfl⟩
      | array items => exact .inr ⟨rfl, .inr ⟨.inl rfl, rfl⟩⟩
      | object fields => exact .inr ⟨rfl, .inr ⟨.inl rfl, rfl⟩⟩
      | integer n => exact absurd rfl hkind
      | _ => exact .inl ⟨_, rfl, rfl⟩
  | float =>
      cases v with
      | string s =>
          cases hread : floatOf? s with
          | none => exact .inr ⟨by simp [convertLenient?, hread], .inr ⟨.inr rfl, rfl⟩⟩
          | some x => exact .inl ⟨.float x, by simp [convertLenient?, hread], rfl⟩
      | array items => exact .inr ⟨rfl, .inr ⟨.inr rfl, rfl⟩⟩
      | object fields => exact .inr ⟨rfl, .inr ⟨.inr rfl, rfl⟩⟩
      | float x => exact absurd rfl hkind
      | _ => exact .inl ⟨_, rfl, rfl⟩
  | object =>
      right
      refine ⟨?_, .inl ⟨rfl, hkind⟩⟩
      cases v with
      | object fields => exact absurd rfl hkind
      | _ => rfl

-- ================================================================ meeting

/-- An object and a number do not meet. -/
theorem meet_of_clash (h : Clash a b) : lenient.meet a b = .error (refuse a b.kind) := by
  rcases h with ⟨ha, hb⟩ | ⟨ha, hb⟩
  · cases a with
    | object fields =>
        cases b with
        | integer n => rfl
        | float x => rfl
        | _ => cases hb
    | _ => cases ha
  · cases b with
    | object fields =>
        cases a with
        | integer n => rfl
        | float x => rfl
        | _ => cases ha
    | _ => cases hb

/-- Values that do not clash meet in one kind, with one of them as it was. -/
theorem meet_of_not_clash (h : ¬Clash a b) :
    ∃ x y, lenient.meet a b = .ok (x, y) ∧ x.kind = y.kind ∧ (x = a ∨ y = b) := by
  unfold lenient
  dsimp only
  rcases convertLenient_cases b a.kind with ⟨r, hright, hkind⟩ | ⟨hright, hrefused⟩
  · rw [hright]
    exact ⟨a, r, rfl, hkind.symm, .inl rfl⟩
  rw [hright]
  rcases convertLenient_cases a b.kind with ⟨l, hleft, hkind⟩ | ⟨-, hrefused'⟩
  · rw [hleft]
    exact ⟨l, b, rfl, hkind, .inr rfl⟩
  -- both are refused: one is an object, and the other one a number
  exfalso
  apply h
  rw [← isNumber_iff] at hrefused hrefused'
  rcases hrefused with ⟨ha, hb⟩ | ⟨ha, hb⟩
  · rcases hrefused' with ⟨hb', -⟩ | ⟨hb', -⟩
    · exact absurd hb' hb
    · exact .inl ⟨ha, hb'⟩
  · rcases hrefused' with ⟨hb', -⟩ | ⟨-, ha'⟩
    · exact .inr ⟨ha, hb'⟩
    · rw [ha] at ha'
      cases ha'

theorem meet_fails_iff : (∃ fault, lenient.meet a b = .error fault) ↔ Clash a b := by
  constructor
  · rintro ⟨fault, hfault⟩
    by_contra hclash
    obtain ⟨x, y, hmeet, -⟩ := meet_of_not_clash hclash
    rw [hmeet] at hfault
    cases hfault
  · intro hclash
    exact ⟨_, meet_of_clash hclash⟩

-- ============================================================== comparing

theorem Clash.ne_null (h : Clash a b) : a ≠ .null ∧ b ≠ .null := by
  constructor
  · rintro rfl
    rcases h with ⟨ha, -⟩ | ⟨ha, -⟩ <;> cases ha
  · rintro rfl
    rcases h with ⟨-, hb⟩ | ⟨-, hb⟩ <;> cases hb

theorem Clash.not_numbers (h : Clash a b) : ¬(a.isNumber = true ∧ b.isNumber = true) := by
  rintro ⟨ha, hb⟩
  rcases h with ⟨hobject, -⟩ | ⟨-, hobject⟩
  · rw [isNumber_iff, hobject] at ha
    simp at ha
  · rw [isNumber_iff, hobject] at hb
    simp at hb

theorem Single.not_clash (ha : Single a) (hb : Single b) : ¬Clash a b := by
  rintro (⟨hobject, -⟩ | ⟨-, hobject⟩)
  · exact ha.2 hobject
  · exact hb.2 hobject

/-- Numbers stand in an order or in none, which is no failure. -/
theorem order_of_numbers {k : Coercion} (hnumbers : a.isNumber = true ∧ b.isNumber = true) :
    ∃ o, k.order a b = .ok o := by
  obtain ⟨ha, hb⟩ := hnumbers
  cases a with
  | integer m =>
      cases b with
      | integer n => exact ⟨_, rfl⟩
      | float y => exact ⟨_, rfl⟩
      | _ => cases hb
  | float x =>
      cases b with
      | integer n => exact ⟨_, rfl⟩
      | float y => exact ⟨_, rfl⟩
      | _ => cases hb
  | _ => cases ha

/-- Values of one kind that hold no others, and are not null, have an order or
none. -/
theorem compareAlike_single (hkind : x.kind = y.kind) (hx : Single x) (hnull : x ≠ .null) :
    ∃ o, compareAlike x y = .ok o := by
  cases x with
  | null => exact absurd rfl hnull
  | array items => exact absurd rfl hx.1
  | object fields => exact absurd rfl hx.2
  | _ =>
      cases y <;> first | exact ⟨_, rfl⟩ | cases hkind

/-- The order of values that hold no others is always found. -/
theorem order_single (ha : Single a) (hb : Single b) : ∃ o, lenient.order a b = .ok o := by
  by_cases hnull : a = .null ∨ b = .null
  · refine ⟨none, if_pos ?_⟩
    rwa [Bool.or_eq_true, isNull_iff, isNull_iff]
  obtain ⟨hnotnull, hnotnull'⟩ := not_or.1 hnull
  by_cases hnumbers : a.isNumber = true ∧ b.isNumber = true
  · exact order_of_numbers hnumbers
  rw [order_of_meet hnotnull hnotnull' hnumbers]
  obtain ⟨x, y, hmeet, hkind, hkept⟩ := meet_of_not_clash (ha.not_clash hb)
  rw [hmeet]
  show ∃ o, compareAlike x y = .ok o
  -- the kind they meet in is that of the one that stays as it was
  rcases hkept with rfl | rfl
  · exact compareAlike_single hkind ha hnotnull
  · apply compareAlike_single hkind
    · unfold Single
      rwa [hkind]
    · rintro rfl
      apply hnotnull'
      cases y with
      | null => rfl
      | _ => cases hkind

/-- Values that do not clash are equal or not. -/
theorem exists_equals (h : ¬Clash a b) : ∃ answer, lenient.equals a b = .ok answer := by
  by_cases hnull : a = .null
  · subst hnull
    cases b <;> exact ⟨_, rfl⟩
  by_cases hnull' : b = .null
  · subst hnull'
    cases a <;> exact ⟨_, rfl⟩
  by_cases hnumbers : a.isNumber = true ∧ b.isNumber = true
  · obtain ⟨o, ho⟩ := order_of_numbers (k := lenient) hnumbers
    rw [equals_of_numbers hnumbers, ho]
    exact ⟨_, rfl⟩
  · obtain ⟨x, y, hmeet, -⟩ := meet_of_not_clash h
    rw [equals_of_meet hnull hnull' hnumbers, hmeet]
    exact ⟨_, rfl⟩

/-- Equality fails where the operands do not meet. -/
theorem equals_fails_iff : (∃ fault, lenient.equals a b = .error fault) ↔ Clash a b := by
  constructor
  · rintro ⟨fault, hfault⟩
    by_contra hclash
    obtain ⟨answer, hequals⟩ := exists_equals hclash
    rw [hequals] at hfault
    cases hfault
  · intro hclash
    rw [equals_of_meet hclash.ne_null.1 hclash.ne_null.2 hclash.not_numbers,
      meet_of_clash hclash]
    exact ⟨_, rfl⟩

-- ============================================================ main result

/-- The operators that compare. -/
def comparing : List Operator := [.equal, .notEqual, .more, .less, .moreEqual, .lessEqual]

/-- Values meet in one kind, with one of them as it was, unless one is an object
and the other one a number, and that is reported as a conversion that is not
possible. Equality fails in this case and in no other, and values that hold no
others can always be compared. -/
theorem lenient_meets (a b : Value) :
    ((∃ fault, lenient.meet a b = .error fault) ↔ Clash a b)
      ∧ (∀ fault, lenient.meet a b = .error fault → fault.cause.code = .badConversion)
      ∧ (∀ x y, lenient.meet a b = .ok (x, y) → x.kind = y.kind ∧ (x = a ∨ y = b))
      ∧ ((∃ fault, lenient.operations.binary .equal a b = .error fault) ↔ Clash a b)
      ∧ (Single a → Single b → ∀ op ∈ comparing,
        ∃ answer : Bool, lenient.operations.binary op a b = .ok (.boolean answer)) := by
  refine ⟨meet_fails_iff, ?_, ?_, ?_, ?_⟩
  · intro fault hfault
    rw [meet_of_clash (meet_fails_iff.1 ⟨fault, hfault⟩)] at hfault
    cases hfault
    rfl
  · intro x y hmeet
    have hclash : ¬Clash a b := by
      intro hclash
      rw [meet_of_clash hclash] at hmeet
      cases hmeet
    obtain ⟨x', y', hmeet', hmet⟩ := meet_of_not_clash hclash
    rw [hmeet] at hmeet'
    cases hmeet'
    exact hmet
  · rw [← equals_fails_iff]
    exact exists_congr fun _ => map_fails_iff
  · intro ha hb op hop
    obtain ⟨o, ho⟩ := order_single ha hb
    obtain ⟨equal, hequal⟩ := exists_equals (ha.not_clash hb)
    simp only [comparing, List.mem_cons, List.not_mem_nil, or_false] at hop
    rcases hop with rfl | rfl | rfl | rfl | rfl | rfl
    · exact ⟨_, equal_of_equals hequal⟩
    · exact ⟨_, notEqual_of_equals hequal⟩
    all_goals exact ⟨_, ordered_of_order ho _⟩

/-- An object and a number do not meet, and a number is compared with a text that
spells none. -/
theorem lenient_meets_text :
    (∃ fault, lenient.operations.binary .equal (.object []) (.integer 1) = .error fault)
      ∧ ∃ answer : Bool,
        lenient.operations.binary .less (.integer 1) (.string "abc") = .ok (.boolean answer) := by
  obtain ⟨-, -, -, hequal, -⟩ := lenient_meets (.object []) (.integer 1)
  obtain ⟨-, -, -, -, hcompare⟩ := lenient_meets (.integer 1) (.string "abc")
  have hnumber : Single (.integer 1) := ⟨by decide, by decide⟩
  have htext : Single (.string "abc") := ⟨by decide, by decide⟩
  exact ⟨hequal.2 (.inl ⟨rfl, rfl⟩), hcompare hnumber htext .less (by decide)⟩

end Formula.Coercion
