/-
What readers return, with the bounds that make them terminate taken off.
`Returns` relates a result to the thing read and the symbols left, and each
reader has one equation or inversion here for each of its branches; nothing
later unfolds a reader.
-/
import Formula.Expr.Grammar

namespace Formula

namespace Expr

-- ================================================================ returning

/-- Whether a result is `a`, read off the front of something that ends with
`rest`. -/
def Returns {α : Type} {n : Nat} (x : Except Halt (Parsed α n)) (a : α)
    (rest : List Symbol) : Prop :=
  ∃ r, x = .ok r ∧ r.value = a ∧ r.rest = rest

section

variable {α β : Type} {n m : Nat} {a : α} {rest : List Symbol}

@[simp] theorem returns_ok {r : Parsed α n} :
    Returns (.ok r) a rest ↔ r.value = a ∧ r.rest = rest := by
  constructor
  · rintro ⟨r', hr, ha, hrest⟩
    cases hr
    exact ⟨ha, hrest⟩
  · rintro ⟨ha, hrest⟩
    exact ⟨r, rfl, ha, hrest⟩

@[simp] theorem not_returns_error {halt : Halt} :
    ¬Returns (.error halt : Except Halt (Parsed α n)) a rest := by
  rintro ⟨r, hr, -⟩
  cases hr

/-- What a successful reader returns is read off its result. -/
theorem exists_returns_ok {r : Parsed α n} {P : α → List Symbol → Prop} :
    (∃ a mid, Returns (.ok r) a mid ∧ P a mid) ↔ P r.value r.rest := by
  constructor
  · rintro ⟨a, mid, hr, hP⟩
    obtain ⟨rfl, rfl⟩ := returns_ok.mp hr
    exact hP
  · intro hP
    exact ⟨r.value, r.rest, returns_ok.mpr ⟨rfl, rfl⟩, hP⟩

/-- Allowing for more symbols changes nothing that is returned. -/
@[simp] theorem returns_weaken {x : Except Halt (Parsed α n)} {h : n ≤ m} :
    Returns (x.map (·.weaken h)) a rest ↔ Returns x a rest := by
  cases x with
  | error halt => simp [Except.map]
  | ok r => simp [Except.map, Parsed.weaken]

/-- A value made from the one read is returned with the same rest. -/
@[simp] theorem returns_map_weaken {x : Except Halt (Parsed α n)}
    {f : α → β} {b : β} {h : n ≤ m} :
    Returns (x.map fun r => (r.map f).weaken h) b rest
      ↔ ∃ a, Returns x a rest ∧ f a = b := by
  cases x with
  | error halt => simp [Except.map]
  | ok r =>
      simp only [Except.map, Parsed.weaken, Parsed.map, returns_ok]
      constructor
      · rintro ⟨hb, hrest⟩
        exact ⟨r.value, ⟨rfl, hrest⟩, hb⟩
      · rintro ⟨a, ⟨rfl, hrest⟩, hb⟩
        exact ⟨hb, hrest⟩

end

/-- A symbol that is expected is taken off the front. -/
theorem expect_returns {part : Part} {cause : Cause} {ss rest : List Symbol} :
    Returns (expect part cause ss) () rest
      ↔ ∃ s, s.part = part ∧ ss = s :: rest := by
  cases ss with
  | nil => simp [expect]
  | cons s ss =>
      by_cases h : s.part = part
      · simp only [expect, h, if_true, returns_ok, true_and]
        constructor
        · rintro rfl
          exact ⟨s, h, rfl⟩
        · rintro ⟨s', -, hss⟩
          injection hss
      · simp only [expect, h, if_false, not_returns_error, false_iff]
        rintro ⟨s', hs', hss⟩
        injection hss with hs
        exact h (hs ▸ hs')

-- =================================================================== chains

section

variable {joints : Joints} {operand : Reader Tree} {left t : Tree}
variable {s : Symbol} {ss rest : List Symbol}

/-- A chain is an operand and what is read on after it. -/
theorem chain_returns :
    Returns (chain joints operand ss) t rest
      ↔ ∃ first mid, Returns (operand ss) first mid
          ∧ Returns (chainFrom joints operand first mid) t rest := by
  unfold chain
  cases h : operand ss with
  | error halt => simp
  | ok r => rw [exists_returns_ok, returns_weaken]

theorem chainFrom_nil_returns :
    Returns (chainFrom joints operand left []) t rest
      ↔ left = t ∧ [] = rest := by
  simp [chainFrom]

/-- A chain ends before a symbol that joins nothing to it. -/
theorem chainFrom_none_returns (hj : joints s ss = none) :
    Returns (chainFrom joints operand left (s :: ss)) t rest
      ↔ left = t ∧ s :: ss = rest := by
  rw [chainFrom]
  split
  · simp
  · next hj' => simp [hj] at hj'
  · next hj' => simp [hj] at hj'

/-- An operator that stands behind takes the chain so far. -/
theorem chainFrom_behind_returns {op : Monadic} {n : Nat}
    (hj : joints s ss = some (.behind op, n)) :
    Returns (chainFrom joints operand left (s :: ss)) t rest
      ↔ Returns (chainFrom joints operand
          (.monadic op left s.value.text s.place) (ss.drop n)) t rest := by
  rw [chainFrom]
  split
  · next hj' => simp [hj] at hj'
  · next op' n' hj' =>
    simp only [hj, Option.some.injEq, Prod.mk.injEq, Joint.behind.injEq] at hj'
    obtain ⟨rfl, rfl⟩ := hj'
    simp
  · next hj' => simp [hj] at hj'

/-- An operator that stands between takes the chain so far and one operand
more. -/
theorem chainFrom_between_returns {op : Dyadic} {n : Nat}
    (hj : joints s ss = some (.between op, n)) :
    Returns (chainFrom joints operand left (s :: ss)) t rest
      ↔ ∃ right mid, Returns (operand (ss.drop n)) right mid
          ∧ Returns (chainFrom joints operand
              (.dyadic op left right s.value.text s.place) mid) t rest := by
  rw [chainFrom]
  split
  · next hj' => simp [hj] at hj'
  · next hj' => simp [hj] at hj'
  · next op' n' hj' =>
    simp only [hj, Option.some.injEq, Prod.mk.injEq, Joint.between.injEq] at hj'
    obtain ⟨rfl, rfl⟩ := hj'
    cases h : operand (ss.drop n) with
    | error halt => simp
    | ok right => rw [exists_returns_ok, returns_weaken]

end

namespace Rung

-- ==================================================================== lists

section

variable {below : Rung} {item : Reader Tree} {ts : List Tree}
variable {s : Symbol} {ss rest : List Symbol}

theorem itemsFrom_nil_returns :
    Returns (itemsFrom item []) ts rest ↔ ts = [] ∧ [] = rest := by
  simp [itemsFrom, eq_comm]

/-- A comma is followed by an item and the items behind that. -/
theorem itemsFrom_comma_returns (hs : s.part = .comma) :
    Returns (itemsFrom item (s :: ss)) ts rest
      ↔ ∃ t mid, Returns (item ss) t mid
          ∧ ∃ ts', Returns (itemsFrom item mid) ts' rest ∧ t :: ts' = ts := by
  rw [itemsFrom]
  simp only [hs, if_true]
  cases h : item ss with
  | error halt => simp
  | ok first => rw [exists_returns_ok, returns_map_weaken]

/-- Without a comma a list is over. -/
theorem itemsFrom_other_returns (hs : s.part ≠ .comma) :
    Returns (itemsFrom item (s :: ss)) ts rest
      ↔ ts = [] ∧ s :: ss = rest := by
  rw [itemsFrom]
  simp [hs, eq_comm]

/-- A list is an item and the items behind it. -/
theorem items_returns :
    Returns (below.items ss) ts rest
      ↔ ∃ t mid, Returns (below.expression ss) t mid
          ∧ ∃ ts', Returns (itemsFrom below.expression mid) ts' rest
            ∧ t :: ts' = ts := by
  unfold items
  cases h : below.expression ss with
  | error halt => simp
  | ok first => rw [exists_returns_ok, returns_map_weaken]

/-- Items up to a closing parenthesis are a list and the parenthesis. -/
theorem closedItems_returns :
    Returns (below.closedItems ss) ts rest
      ↔ ∃ close, close.part = .rightParen
          ∧ Returns (below.items ss) ts (close :: rest) := by
  unfold closedItems
  cases h : below.items ss with
  | error halt => simp
  | ok r =>
      simp only
      have hexpect := @expect_returns .rightParen .missingParenthesis r.rest
      cases hc : expect .rightParen .missingParenthesis r.rest with
      | error halt =>
          simp only [hc, not_returns_error, false_iff, not_exists] at hexpect
          simp only [not_returns_error, returns_ok, false_iff]
          rintro ⟨close, hclose, -, hrest⟩
          exact hexpect close ⟨hclose, hrest⟩
      | ok close =>
          simp only [hc, returns_ok, true_and] at hexpect
          simp only [returns_ok, hexpect]
          constructor
          · rintro ⟨hts, e, he, hrest⟩
            exact ⟨e, he, hts, hrest⟩
          · rintro ⟨e, he, hts, hrest⟩
            exact ⟨hts, e, he, hrest⟩

end

-- ==================================================================== atoms

section

variable {below : Rung} {t : Tree} {ts : List Tree}
variable {s o : Symbol} {ss rest : List Symbol}

/-- No arguments are read where the parenthesis closes at once. -/
theorem arguments_close_returns (hs : s.part = .rightParen) :
    Returns (below.arguments (s :: ss)) ts rest ↔ ts = [] ∧ ss = rest := by
  simp [arguments, hs, eq_comm]

/-- Else arguments are items up to the closing parenthesis. -/
theorem arguments_other_returns (hs : s.part ≠ .rightParen) :
    Returns (below.arguments (s :: ss)) ts rest
      ↔ Returns (below.closedItems (s :: ss)) ts rest := by
  simp [arguments, hs]

/-- A name without a parenthesis behind it is a variable. -/
theorem named_variable_returns
    (hss : ∀ o rest', ss = o :: rest' → o.part ≠ .leftParen) :
    Returns (below.named s ss) t rest
      ↔ .variable s.value.text s.place = t ∧ ss = rest := by
  cases ss with
  | nil => simp [named]
  | cons o ss => simp [named, hss o ss rfl]

/-- A name with a parenthesis behind it is a call. -/
theorem named_call_returns (ho : o.part = .leftParen) :
    Returns (below.named s (o :: ss)) t rest
      ↔ ∃ args, Returns (below.arguments ss) args rest
          ∧ .call s.value.text args s.place = t := by
  simp [named, ho]

theorem atom_constant_returns (hs : s.part = .constant) :
    Returns (below.atom s ss) t rest
      ↔ .constant s.value s.place = t ∧ ss = rest := by
  simp [atom, hs]

theorem atom_null_returns (hs : s.part = .null) :
    Returns (below.atom s ss) t rest
      ↔ .constant .null s.place = t ∧ ss = rest := by
  simp [atom, hs]

theorem atom_variable_returns (hs : s.part = .variable) :
    Returns (below.atom s ss) t rest
      ↔ Returns (below.named s ss) t rest := by
  simp [atom, hs]

theorem atom_group_returns (hs : s.part = .leftParen) :
    Returns (below.atom s ss) t rest
      ↔ ∃ ts, Returns (below.closedItems ss) ts rest
          ∧ grouped s.place ts = t := by
  simp [atom, hs]

/-- Nothing else begins an atom. -/
theorem atom_returns_part (h : Returns (below.atom s ss) t rest) :
    s.part = .constant ∨ s.part = .null ∨ s.part = .variable
      ∨ s.part = .leftParen := by
  unfold atom at h
  split at h
  · next hs => exact Or.inl hs
  · next hs => exact Or.inr (Or.inl hs)
  · next hs => exact Or.inr (Or.inr (Or.inl hs))
  · next hs => exact Or.inr (Or.inr (Or.inr hs))
  · exact absurd h not_returns_error

end

-- ================================================================ primaries

section

variable {below : Rung} {primary : Reader Tree} {base t : Tree}
variable {s : Symbol} {ss rest : List Symbol}

theorem indexed_nil_returns :
    Returns (below.indexed base []) t rest ↔ base = t ∧ [] = rest := by
  simp [indexed]

/-- An index is an expression in brackets, and more may follow. -/
theorem indexed_bracket_returns (hs : s.part = .leftBracket) :
    Returns (below.indexed base (s :: ss)) t rest
      ↔ ∃ i close mid, close.part = .rightBracket
          ∧ Returns (below.expression ss) i (close :: mid)
          ∧ Returns (below.indexed
              (.dyadic (.plain .element) base i s.value.text s.place) mid)
              t rest := by
  rw [indexed]
  simp only [hs, if_true]
  cases h : below.expression ss with
  | error halt => simp
  | ok index =>
      simp only
      have hexpect := @expect_returns .rightBracket .missingBracket index.rest
      cases hc : expect .rightBracket .missingBracket index.rest with
      | error halt =>
          simp only [hc, not_returns_error, false_iff, not_exists] at hexpect
          simp only [not_returns_error, returns_ok, false_iff]
          rintro ⟨i, close, mid, hclose, ⟨-, hrest⟩, -⟩
          exact hexpect close ⟨hclose, hrest⟩
      | ok close =>
          simp only [hc, returns_ok, true_and] at hexpect
          simp only [returns_weaken, returns_ok]
          constructor
          · intro hmore
            obtain ⟨e, he, hrest⟩ := (@hexpect close.rest).mp rfl
            exact ⟨index.value, e, close.rest, he, ⟨rfl, hrest⟩, hmore⟩
          · rintro ⟨i, e, mid, he, ⟨rfl, hrest⟩, hmore⟩
            rw [(@hexpect mid).mpr ⟨e, he, hrest⟩]
            exact hmore

/-- Without a bracket the indexes are over. -/
theorem indexed_other_returns (hs : s.part ≠ .leftBracket) :
    Returns (below.indexed base (s :: ss)) t rest
      ↔ base = t ∧ s :: ss = rest := by
  rw [indexed]
  simp [hs]

theorem not_primaryAbove_nil_returns :
    ¬Returns (primaryAbove below []) t rest := by
  simp [primaryAbove]

theorem primaryAbove_plus_returns (hs : s.part = .plus) :
    Returns (primaryAbove below (s :: ss)) t rest
      ↔ ∃ u, Returns (below.primary ss) u rest ∧ .plus u = t := by
  simp [primaryAbove, hs]

theorem primaryAbove_minus_returns (hs : s.part = .minus) :
    Returns (primaryAbove below (s :: ss)) t rest
      ↔ ∃ u, Returns (below.primary ss) u rest
          ∧ .monadic (.plain .negative) u s.value.text s.place = t := by
  simp [primaryAbove, hs]

/-- Without a sign a primary is an atom with its indexes. -/
theorem primaryAbove_other_returns (hp : s.part ≠ .plus)
    (hm : s.part ≠ .minus) :
    Returns (primaryAbove below (s :: ss)) t rest
      ↔ ∃ base mid, Returns (below.atom s ss) base mid
          ∧ Returns (below.indexed base mid) t rest := by
  simp only [primaryAbove]
  cases h : below.atom s ss with
  | error halt => simp
  | ok base => rw [exists_returns_ok, returns_weaken]

-- ================================================================ negations

theorem negationAbove_not_returns (hs : s.part = .not) :
    Returns (negationAbove below primary (s :: ss)) t rest
      ↔ ∃ u, Returns (below.negation ss) u rest
          ∧ .monadic (.plain .not) u s.value.text s.place = t := by
  simp [negationAbove, hs]

/-- Without `NOT` at the front there is a comparison. -/
theorem negationAbove_other_returns
    (hss : ∀ o rest', ss = o :: rest' → o.part ≠ .not) :
    Returns (negationAbove below primary ss) t rest
      ↔ Returns (relational primary ss) t rest := by
  cases ss with
  | nil => rfl
  | cons o ss => simp [negationAbove, hss o ss rfl]

/-- The floor reads nothing. -/
theorem not_tooDeep_returns : ¬Returns (tooDeep ss) t rest := by
  cases ss with
  | nil => simp [tooDeep]
  | cons s ss => simp [tooDeep]

end

end Rung

end Expr

end Formula
