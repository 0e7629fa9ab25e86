/-
Looking names up in scopes. Names that are the same stand for the same
variable, so that it is enough to know what one of them stands for
(`Scope.find?_congr`).

Adding what is missing keeps the variables that are there and puts one that
holds null behind them for each name without a variable
(`Scope.entries_addMissing`). Then all of the names have one
(`Scope.isSome_find?_addMissing`), and there is nothing left to add.
-/
import Formula.Expr.Scope
import Formula.Text.Names

namespace Formula.Scope

-- ================================================================ looking up

/-- Names that are the same stand for the same variable. -/
theorem find?_congr (s : Scope) {m n : String} (h : sameName m n = true) :
    s.find? m = s.find? n := by
  unfold find?
  simp only [sameName_congr h]

theorem value?_congr (s : Scope) {m n : String} (h : sameName m n = true) :
    s.value? m = s.value? n := by
  unfold value?
  rw [s.find?_congr h]

/-- A variable is found behind the others if none of them has its name. -/
theorem find?_add (s : Scope) (name : String) (value : Value) (n : String) :
    (s.add name value).find? n
      = (s.find? n).or (if sameName name n then some ⟨name, value⟩ else none) := by
  unfold find? add
  rw [List.find?_append, List.find?_singleton]

-- ============================================================ adding missing

theorem addMissing_cons (s : Scope) (n : String) (names : List String) :
    s.addMissing (n :: names)
      = (if (s.find? n).isSome then s else s.add n .null).addMissing names := rfl

/-- What is found when missing names were added was found before, or is the same
as one of them. -/
theorem isSome_find?_addMissing (s : Scope) (names : List String) (n : String) :
    ((s.addMissing names).find? n).isSome
      = ((s.find? n).isSome || names.any (sameName n)) := by
  induction names generalizing s with
  | nil => exact (Bool.or_false _).symm
  | cons m names ih =>
      rw [addMissing_cons, ih, List.any_cons, ← Bool.or_assoc]
      congr 1
      cases hm : (s.find? m).isSome with
      | true =>
          rw [if_pos rfl]
          cases hsame : sameName n m with
          | false => rw [Bool.or_false]
          | true => rw [s.find?_congr hsame, hm, Bool.or_true]
      | false =>
          rw [if_neg Bool.false_ne_true, find?_add, Option.isSome_or, sameName_comm m n]
          cases sameName n m <;> rfl

theorem addMissing_of_found {s : Scope} {names : List String}
    (h : ∀ n ∈ names, (s.find? n).isSome = true) : s.addMissing names = s := by
  induction names with
  | nil => rfl
  | cons n names ih =>
      rw [addMissing_cons, if_pos (h n (List.mem_cons_self ..))]
      exact ih fun m hm => h m (List.mem_cons_of_mem n hm)

/-- Adding missing names twice adds nothing the second time. -/
theorem addMissing_addMissing (s : Scope) (names : List String) :
    (s.addMissing names).addMissing names = s.addMissing names := by
  refine addMissing_of_found fun n hn => ?_
  have hlisted : names.any (sameName n) = true := List.any_eq_true.2 ⟨n, hn, sameName_refl n⟩
  rw [isSome_find?_addMissing, hlisted, Bool.or_true]

/-- The variables of a scope stay, and behind them comes one that holds null for
each name that the scope lacks. -/
theorem entries_addMissing (s : Scope) {names : List String}
    (h : names.Pairwise fun m n => sameName m n = false) :
    (s.addMissing names).entries
      = s.entries ++ (names.filter fun n => (s.find? n).isNone).map fun n => ⟨n, .null⟩ := by
  induction names generalizing s with
  | nil => exact (List.append_nil s.entries).symm
  | cons n names ih =>
      obtain ⟨hn, hnames⟩ := List.pairwise_cons.1 h
      rw [addMissing_cons, ih _ hnames]
      cases hfind : s.find? n with
      | some v => simp [hfind]
      | none =>
          -- the names that follow are other names, and so missing as before
          have hsame : ∀ m ∈ names, ((s.add n .null).find? m).isNone = (s.find? m).isNone := by
            intro m hm
            rw [find?_add, hn m hm, if_neg Bool.false_ne_true, Option.or_none]
          rw [Option.isSome_none, if_neg Bool.false_ne_true, List.filter_congr hsame]
          simp [hfind, add]

end Formula.Scope
