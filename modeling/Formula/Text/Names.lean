/-
Lists of names without repetition, in the spelling of their first
appearance. Names are the same when they differ in the case of ASCII letters
only.
-/
import Formula.Text.Case

namespace Formula.Names

/-- The names of a list that none of the names seen before is the same
as. -/
def distinctFrom (seen : List String) : List String → List String
  | [] => []
  | n :: ns =>
    if seen.any (sameName n) then distinctFrom seen ns else n :: distinctFrom (n :: seen) ns

/-- The names of a list, each where it appears first. -/
def distinct (names : List String) : List String := distinctFrom [] names

/-- A list of names with one more at its end, unless it is there already. -/
def insert (names : List String) (n : String) : List String :=
  if names.any (sameName n) then names else names ++ [n]

/-- A list of names with more names inserted one by one. -/
def insertAll (names : List String) (more : List String) : List String := more.foldl insert names

/-- Inserting names one by one adds those that were not seen before. -/
theorem insertAll_eq {names seen : List String}
    (h : ∀ n, names.any (sameName n) = seen.any (sameName n)) (more : List String) :
    insertAll names more = names ++ distinctFrom seen more := by
  induction more generalizing names seen with
  | nil => exact (List.append_nil names).symm
  | cons n more ih =>
      have hsame : insertAll names (n :: more) = insertAll (insert names n) more := rfl
      rw [hsame, distinctFrom, insert, h n]
      cases hseen : seen.any (sameName n) with
      | true => exact ih h
      | false =>
          have hmore : ∀ m, (names ++ [n]).any (sameName m) = (n :: seen).any (sameName m) := by
            intro m
            rw [List.any_append, List.any_cons, h m, List.any_cons, List.any_nil, Bool.or_false,
              Bool.or_comm]
          rw [if_neg Bool.false_ne_true, if_neg Bool.false_ne_true, ih hmore,
            List.append_assoc]
          rfl

theorem insertAll_nil (more : List String) : insertAll [] more = distinct more :=
  insertAll_eq (fun _ => rfl) more

theorem insertAll_append (names more further : List String) :
    insertAll names (more ++ further) = insertAll (insertAll names more) further :=
  List.foldl_append

-- ========================================================== distinct names

/-- What is kept of a list is in it, and the same as nothing seen before. -/
theorem of_mem_distinctFrom {seen names : List String} {n : String}
    (h : n ∈ distinctFrom seen names) : n ∈ names ∧ seen.any (sameName n) = false := by
  fun_induction distinctFrom seen names with
  | case1 => cases h
  | case2 seen m names _ ih => exact ⟨List.mem_cons_of_mem m (ih h).1, (ih h).2⟩
  | case3 seen m names hseen ih =>
      rcases List.mem_cons.1 h with rfl | h
      · exact ⟨List.mem_cons_self .., Bool.eq_false_iff.2 hseen⟩
      · obtain ⟨hmem, hother⟩ := ih h
        rw [List.any_cons, Bool.or_eq_false_iff] at hother
        exact ⟨List.mem_cons_of_mem m hmem, hother.2⟩

/-- No two of the names that are kept are the same. -/
theorem pairwise_distinctFrom (seen names : List String) :
    (distinctFrom seen names).Pairwise fun m n => sameName m n = false := by
  fun_induction distinctFrom seen names with
  | case1 => exact .nil
  | case2 _ _ _ _ ih => exact ih
  | case3 seen m names _ ih =>
      refine .cons (fun n hn => ?_) ih
      have hother := (of_mem_distinctFrom hn).2
      rw [List.any_cons, Bool.or_eq_false_iff] at hother
      rw [sameName_comm]
      exact hother.1

/-- A name is the same as one that is kept or was seen before exactly if it is
the same as one of the list or one seen before. -/
theorem any_distinctFrom (seen names : List String) (n : String) :
    (seen.any (sameName n) || (distinctFrom seen names).any (sameName n))
      = (seen.any (sameName n) || names.any (sameName n)) := by
  fun_induction distinctFrom seen names with
  | case1 => rfl
  | case2 seen m names hseen ih =>
      rw [ih, List.any_cons]
      cases hsame : sameName n m with
      | false => rw [Bool.false_or]
      | true =>
          obtain ⟨k, hk, hsame'⟩ := List.any_eq_true.1 hseen
          have hknown : seen.any (sameName n) = true :=
            List.any_eq_true.2 ⟨k, hk, by rw [← sameName_congr hsame', hsame]⟩
          rw [hknown, Bool.true_or, Bool.true_or]
  | case3 seen m names _ ih =>
      rw [List.any_cons, Bool.or_assoc, Bool.or_assoc] at ih
      rw [List.any_cons, List.any_cons, Bool.or_left_comm, ih, Bool.or_left_comm]

theorem pairwise_distinct (names : List String) :
    (distinct names).Pairwise fun m n => sameName m n = false := pairwise_distinctFrom [] names

/-- A name is the same as one of a list exactly if it is the same as one that
is kept. -/
theorem any_distinct (names : List String) (n : String) :
    (distinct names).any (sameName n) = names.any (sameName n) := any_distinctFrom [] names n

end Formula.Names
