/-
The greatest and the least of integers and nulls. `Max` and `Min` keep the first
argument until one comes that is beyond it, and null is beyond nothing and has
nothing beyond it. So a null that comes first stays to the end (`selectBy_null`), and
a null that comes later is passed over (`selectBy_integer`).

Main statement: in another order the same arguments give the same result if and only
if both orders begin with null or neither does (`extremes_permuted_iff`).
-/
import Formula.Expr.StandardLibrary

namespace Formula.Routine

-- =============================================================== the order

/-- The operators that `Max` and `Min` choose by, and what each asks for. -/
inductive Asks : Operator → Ordering → Prop where
  | more : Asks .more .gt
  | less : Asks .less .lt

/-- Whether an integer is not beyond another one, on one side: at most as great with
`.gt`, at least as great with `.lt`. -/
def Within (side : Ordering) (m n : Int64) : Prop := compare m.toInt n.toInt ≠ side

theorem within_gt_iff {m n : Int64} : Within .gt m n ↔ m ≤ n := by
  rw [Int64.le_iff_toInt_le]
  exact Int.compare_ne_gt

theorem within_lt_iff {m n : Int64} : Within .lt m n ↔ n ≤ m := by
  rw [Int64.le_iff_toInt_le]
  exact Int.compare_ne_lt

section

variable {op : Operator} {side : Ordering} (hop : Asks op side) {i m n : Int64}

include hop

theorem Within.trans (him : Within side i m) (hmn : Within side m n) : Within side i n := by
  cases hop with
  | more =>
      rw [within_gt_iff] at *
      exact Int64.le_trans him hmn
  | less =>
      rw [within_lt_iff] at *
      exact Int64.le_trans hmn him

/-- Of two integers, one is not beyond the other. -/
theorem Within.total (m n : Int64) : Within side m n ∨ Within side n m := by
  cases hop with
  | more =>
      rw [within_gt_iff, within_gt_iff]
      exact Int64.le_total m n
  | less =>
      rw [within_lt_iff, within_lt_iff]
      exact Int64.le_total n m

theorem Within.antisymm (hmn : Within side m n) (hnm : Within side n m) : m = n := by
  cases hop with
  | more =>
      rw [within_gt_iff] at *
      exact Int64.le_antisymm hmn hnm
  | less =>
      rw [within_lt_iff] at *
      exact Int64.le_antisymm hnm hmn

end

-- ================================================================ extremes

/-- Integers, and null, which stands for a number that is missing. -/
def IntegerOrNull (v : Value) : Prop := v = .null ∨ ∃ n, v = .integer n

/-- An integer among some values that no integer there is beyond. -/
structure Extreme (side : Ordering) (vs : List Value) (n : Int64) : Prop where
  mem : .integer n ∈ vs
  bound : ∀ m, .integer m ∈ vs → Within side m n

/-- An integer that is not beyond the extreme makes no difference in front. -/
theorem Extreme.cons {side : Ordering} {m n : Int64} {vs : List Value} (h : Extreme side vs n)
    (hm : Within side m n) : Extreme side (.integer m :: vs) n := by
  refine ⟨List.mem_cons_of_mem _ h.mem, fun j hj => ?_⟩
  rcases List.mem_cons.1 hj with heq | hj
  · cases heq
    exact hm
  · exact h.bound j hj

/-- What is selected from integers and nulls: null if it comes first, and otherwise the
extreme. -/
inductive Selected (side : Ordering) : List Value → Value → Prop where
  | null (rest : List Value) : Selected side (.null :: rest) .null
  | extreme {m n : Int64} {rest : List Value} (h : Extreme side (.integer m :: rest) n) :
    Selected side (.integer m :: rest) (.integer n)

section

variable {op : Operator} {side : Ordering} (hop : Asks op side) {m n : Int64} {vs : List Value}

include hop

/-- The same values in another order have the same extreme. -/
theorem Extreme.unique {vs' : List Value} {n' : Int64} (h : Extreme side vs n)
    (h' : Extreme side vs' n') (hperm : vs.Perm vs') : n = n' :=
  Within.antisymm hop (h'.bound n (hperm.mem_iff.1 h.mem)) (h.bound n' (hperm.mem_iff.2 h'.mem))

theorem extreme_single (n : Int64) : Extreme side [.integer n] n := by
  refine ⟨List.mem_cons_self, fun j hj => ?_⟩
  cases List.mem_singleton.1 hj
  exact (Within.total hop n n).elim id id

/-- A value that is not beyond the first one makes no difference behind it. -/
theorem Extreme.insert {v : Value} (h : Extreme side (.integer m :: vs) n)
    (hv : ∀ i, v = .integer i → Within side i m) : Extreme side (.integer m :: v :: vs) n := by
  have hm := h.bound m List.mem_cons_self
  refine ⟨?_, fun j hj => ?_⟩
  · rcases List.mem_cons.1 h.mem with heq | hmem
    · rw [heq]
      exact List.mem_cons_self
    · exact List.mem_cons_of_mem _ (List.mem_cons_of_mem _ hmem)
  · rcases List.mem_cons.1 hj with heq | hj
    · cases heq
      exact hm
    rcases List.mem_cons.1 hj with heq | hj
    · exact Within.trans hop (hv j heq.symm) hm
    · exact h.bound j (List.mem_cons_of_mem _ hj)

end

-- =============================================================== selection

theorem selectBy_cons {op : Operator} {ops : Operations} {kept v answer : Value}
    (h : ops.binary op v kept = .ok answer) (rest : List Value) :
    selectBy op kept (v :: rest) ops
      = selectBy op (if answer.truth then v else kept) rest ops := by
  unfold selectBy
  rw [List.foldlM_cons, h]
  rfl

section

variable {op : Operator} {side : Ordering} (hop : Asks op side) (k : Coercion)

include hop

theorem Asks.binary_eq : k.operations.binary op = k.ordered (· == side) := by
  cases hop with
  | more => rfl
  | less => rfl

theorem Asks.binary_integers (m n : Int64) :
    k.operations.binary op (.integer m) (.integer n)
      = .ok (.boolean (compare m.toInt n.toInt == side)) := by
  rw [hop.binary_eq]
  rfl

/-- Null is beyond nothing. -/
theorem Asks.binary_null_left (v : Value) :
    k.operations.binary op .null v = .ok (.boolean false) := by
  rw [hop.binary_eq]
  rfl

/-- Nothing is beyond null. -/
theorem Asks.binary_null_right (v : Value) :
    k.operations.binary op v .null = .ok (.boolean false) := by
  rw [hop.binary_eq]
  cases v <;> rfl

/-- A null that comes first stays to the end. -/
theorem selectBy_null (rest : List Value) : selectBy op .null rest k.operations = .ok .null := by
  induction rest with
  | nil => rfl
  | cons v rest ih =>
      rw [selectBy_cons (hop.binary_null_right k v)]
      exact ih

/-- An integer that comes first gives way to the extreme of all. -/
theorem selectBy_integer (m : Int64) {rest : List Value} (hrest : ∀ v ∈ rest, IntegerOrNull v) :
    ∃ n, selectBy op (.integer m) rest k.operations = .ok (.integer n)
      ∧ Extreme side (.integer m :: rest) n := by
  induction rest generalizing m with
  | nil => exact ⟨m, rfl, extreme_single hop m⟩
  | cons v rest ih =>
      rw [List.forall_mem_cons] at hrest
      obtain ⟨hv, hrest⟩ := hrest
      rcases hv with rfl | ⟨i, rfl⟩
      · rw [selectBy_cons (hop.binary_null_left k _)]
        obtain ⟨n, hn, hextreme⟩ := ih m hrest
        exact ⟨n, hn, hextreme.insert hop nofun⟩
      · rw [selectBy_cons (hop.binary_integers k i m)]
        by_cases hbeyond : compare i.toInt m.toInt = side
        · obtain ⟨n, hn, hextreme⟩ := ih i hrest
          have hwithin : Within side m i :=
            (Within.total hop i m).resolve_left fun hnot => hnot hbeyond
          have hbound := hextreme.bound i List.mem_cons_self
          refine ⟨n, ?_, hextreme.cons (Within.trans hop hwithin hbound)⟩
          rw [hbeyond, beq_self_eq_true]
          exact hn
        · obtain ⟨n, hn, hextreme⟩ := ih m hrest
          refine ⟨n, ?_, hextreme.insert hop ?_⟩
          · rw [beq_eq_false_iff_ne.2 hbeyond]
            exact hn
          · rintro _ ⟨⟩
            exact hbeyond

/-- Arguments there are at least one of have a result. -/
theorem exists_selected (name : String) {args : List Value} (hne : args ≠ [])
    (hargs : ∀ v ∈ args, IntegerOrNull v) :
    ∃ v, (ofSome name (selectBy op)).run args k.operations = .ok v ∧ Selected side args v := by
  obtain ⟨first, rest, rfl⟩ := List.exists_cons_of_ne_nil hne
  rw [List.forall_mem_cons] at hargs
  obtain ⟨hfirst, hrest⟩ := hargs
  rcases hfirst with rfl | ⟨m, rfl⟩
  · exact ⟨.null, selectBy_null hop k rest, .null rest⟩
  · obtain ⟨n, hn, hextreme⟩ := selectBy_integer hop k m hrest
    exact ⟨.integer n, hn, .extreme hextreme⟩

/-- What is selected from the same values in two orders. -/
theorem Selected.eq_iff {args args' : List Value} {v v' : Value} (h : Selected side args v)
    (h' : Selected side args' v') (hperm : args.Perm args') :
    v = v' ↔ (args.head? = some .null ↔ args'.head? = some .null) := by
  cases h with
  | null rest =>
      cases h' with
      | null rest' => simp
      | extreme hextreme' => simp
  | extreme hextreme =>
      cases h' with
      | null rest' => simp
      | extreme hextreme' => simp [hextreme.unique hop hextreme' hperm]

end

-- ============================================================= main result

/-- Integers and nulls, at least one, have a greatest and a least with every coercion:
null if null comes first, and otherwise the greatest and the least of the integers. So
in another order they have the same if and only if both orders begin with null or
neither does. -/
theorem extremes_permuted_iff (k : Coercion) {args args' : List Value} (hne : args ≠ [])
    (hargs : ∀ v ∈ args, IntegerOrNull v) (hperm : args.Perm args') :
    (∃ v v', max.run args k.operations = .ok v ∧ max.run args' k.operations = .ok v'
        ∧ Selected .gt args v ∧ Selected .gt args' v'
        ∧ (v = v' ↔ (args.head? = some .null ↔ args'.head? = some .null)))
      ∧ ∃ v v', min.run args k.operations = .ok v ∧ min.run args' k.operations = .ok v'
        ∧ Selected .lt args v ∧ Selected .lt args' v'
        ∧ (v = v' ↔ (args.head? = some .null ↔ args'.head? = some .null)) := by
  have hne' : args' ≠ [] := fun hnil => hne (List.perm_nil.1 (hnil ▸ hperm))
  have hargs' : ∀ v ∈ args', IntegerOrNull v := fun v hv => hargs v (hperm.mem_iff.2 hv)
  constructor
  · obtain ⟨v, hv, hselected⟩ := exists_selected .more k "Max" hne hargs
    obtain ⟨v', hv', hselected'⟩ := exists_selected .more k "Max" hne' hargs'
    exact ⟨v, v', hv, hv', hselected, hselected', hselected.eq_iff .more hselected' hperm⟩
  · obtain ⟨v, hv, hselected⟩ := exists_selected .less k "Min" hne hargs
    obtain ⟨v', hv', hselected'⟩ := exists_selected .less k "Min" hne' hargs'
    exact ⟨v, v', hv, hv', hselected, hselected', hselected.eq_iff .less hselected' hperm⟩

/-- Nulls that do not come first make no difference. -/
theorem extremes_permuted_iff_later :
    let args : List Value := [.integer 3, .null, .integer (-5)]
    let args' : List Value := [.integer (-5), .null, .integer 3]
    args.Perm args' ∧ (∀ v ∈ args, IntegerOrNull v)
      ∧ max.run args Coercion.strict.operations = max.run args' Coercion.strict.operations
      ∧ min.run args Coercion.strict.operations = min.run args' Coercion.strict.operations := by
  intro args args'
  have hargs : ∀ v ∈ args, IntegerOrNull v := by simp [args, IntegerOrNull]
  have hperm : args.Perm args' := (List.reverse_perm args).symm
  have hheads : args.head? = some .null ↔ args'.head? = some .null := by simp [args, args']
  obtain ⟨⟨v, v', hv, hv', -, -, hmax⟩, w, w', hw, hw', -, -, hmin⟩ :=
    extremes_permuted_iff Coercion.strict (List.cons_ne_nil _ _) hargs hperm
  refine ⟨hperm, hargs, ?_, ?_⟩
  · rw [hv, hv', hmax.2 hheads]
  · rw [hw, hw', hmin.2 hheads]

/-- A null that comes first makes all the difference. -/
theorem extremes_null_first :
    [Value.null, .integer 1].Perm [.integer 1, .null]
      ∧ max.run [.null, .integer 1] Coercion.strict.operations = .ok .null
      ∧ max.run [.integer 1, .null] Coercion.strict.operations = .ok (.integer 1)
      ∧ min.run [.null, .integer 1] Coercion.lenient.operations = .ok .null
      ∧ min.run [.integer 1, .null] Coercion.lenient.operations = .ok (.integer 1) :=
  ⟨.swap _ _ _, rfl, rfl, rfl, rfl⟩

end Formula.Routine
