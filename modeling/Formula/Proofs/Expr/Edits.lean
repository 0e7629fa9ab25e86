/-
Scopes as maps. A scope stands for a map from folded names to values, which
holds for each name the value of the first variable of that name (`view`).

What is done to a scope is one of five edits. Each writes to the map at its own
name only (`Edit.view_apply`), and each gives one variable of the list a new value,
adds one behind the others, or takes those of one name away (`Edit.changes_apply`).
Variables have different names as long as none is added for a name that is there
(`Edit.distinct_apply`).
-/
import Formula.Proofs.Expr.Scope
import Mathlib.Logic.Function.Basic

namespace Formula

namespace Scope

-- ================================================================== the map

/-- The value of the first variable whose folded name is a key. -/
def view (s : Scope) (key : String) : Option Value :=
  (s.entries.find? fun v => asciiFold v.name == key).map Variable.value

theorem map_find? (s : Scope) (name : String) :
    (s.find? name).map Variable.value = s.view (asciiFold name) := rfl

theorem isSome_find? (s : Scope) (name : String) :
    (s.find? name).isSome = (s.view (asciiFold name)).isSome :=
  Option.isSome_map.symm

/-- The first variable of a name hides the others. -/
theorem view_cons (v : Variable) (vs : List Variable) :
    view ⟨v :: vs⟩ = Function.update (view ⟨vs⟩) (asciiFold v.name) (some v.value) := by
  funext key
  rw [Function.update_apply, view, List.find?_cons]
  by_cases h : key = asciiFold v.name
  · rw [if_pos h, beq_iff_eq.2 h.symm]
    rfl
  · rw [if_neg h, beq_eq_false_iff_ne.2 (Ne.symm h)]
    rfl

/-- A variable behind the others counts where none of them has its name. -/
theorem view_add (s : Scope) (name : String) (value : Value) :
    (s.add name value).view
      = if (s.view (asciiFold name)).isSome then s.view
        else Function.update s.view (asciiFold name) (some value) := by
  obtain ⟨vs⟩ := s
  unfold add
  induction vs with
  | nil => exact view_cons ⟨name, value⟩ []
  | cons v vs ih =>
      rw [List.cons_append, view_cons, view_cons, ih]
      by_cases hsame : asciiFold name = asciiFold v.name
      · rw [hsame, Function.update_self, Option.isSome_some, if_pos rfl]
        split
        · rfl
        · exact Function.update_idem ..
      · rw [Function.update_of_ne hsame]
        split
        · rfl
        · exact Function.update_comm hsame ..

/-- A new value counts for its own name, if there is a variable to hold it. -/
theorem view_update (s : Scope) (name : String) (value : Value) :
    (s.update name value).view
      = if (s.view (asciiFold name)).isSome then
          Function.update s.view (asciiFold name) (some value)
        else s.view := by
  obtain ⟨vs⟩ := s
  unfold update
  induction vs with
  | nil => rfl
  | cons v vs ih =>
      rw [assignIn, view_cons]
      split
      · next hsame =>
        rw [← sameName_iff.1 hsame, Function.update_self, Option.isSome_some, if_pos rfl, view_cons,
          Function.update_idem]
      · next hother =>
        have hne : asciiFold name ≠ asciiFold v.name := fun h => hother (sameName_iff.2 h.symm)
        rw [Function.update_of_ne hne, view_cons, ih]
        split
        · exact Function.update_comm hne ..
        · rfl

theorem view_set (s : Scope) (name : String) (value : Value) :
    (s.set name value).view = Function.update s.view (asciiFold name) (some value) := by
  rw [set, isSome_find?]
  cases hview : (s.view (asciiFold name)).isSome with
  | true => rw [if_pos rfl, view_update, hview, if_pos rfl]
  | false =>
      rw [if_neg Bool.false_ne_true, view_add, hview, if_neg Bool.false_ne_true]

/-- What is removed is gone, however often it was there. -/
theorem view_remove (s : Scope) (name : String) :
    (s.remove name).view = Function.update s.view (asciiFold name) none := by
  obtain ⟨vs⟩ := s
  unfold remove
  induction vs with
  | nil => exact (Function.update_eq_self ..).symm
  | cons v vs ih =>
      rw [view_cons]
      cases hsame : sameName v.name name with
      | true =>
          rw [List.filter_cons_of_neg (by simp [hsame]), ih, sameName_iff.1 hsame,
            Function.update_idem]
      | false =>
          have hne : asciiFold v.name ≠ asciiFold name :=
            fun h => Bool.false_ne_true (hsame.symm.trans (sameName_iff.2 h))
          rw [List.filter_cons_of_pos (by simp [hsame]), view_cons, ih, Function.update_comm hne]

-- ================================================================= the list

/-- Either no variable of a list has a name, or there is a first one that has. -/
theorem absent_or_first (name : String) (vs : List Variable) :
    (∀ u ∈ vs, sameName u.name name = false)
      ∨ ∃ front u behind, vs = front ++ u :: behind ∧ sameName u.name name = true
          ∧ ∀ w ∈ front, sameName w.name name = false := by
  cases hfind : vs.find? fun v => sameName v.name name with
  | none => exact .inl fun u hu => Bool.eq_false_iff.2 (List.find?_eq_none.1 hfind u hu)
  | some u =>
      obtain ⟨hu, front, behind, hvs, hfront⟩ := List.find?_eq_some_iff_append.1 hfind
      refine .inr ⟨front, u, behind, hvs, hu, fun w hw => ?_⟩
      exact (Bool.not_eq_eq_eq_not ..).1 (hfront w hw)

theorem assignIn_of_absent {name : String} {value : Value} {vs : List Variable}
    (h : ∀ u ∈ vs, sameName u.name name = false) : assignIn name value vs = vs := by
  induction vs with
  | nil => rfl
  | cons v vs ih =>
      rw [assignIn, h v List.mem_cons_self, if_neg Bool.false_ne_true,
        ih fun u hu => h u (List.mem_cons_of_mem v hu)]

theorem assignIn_first {name : String} {value : Value} {front behind : List Variable}
    {u : Variable} (hfront : ∀ w ∈ front, sameName w.name name = false)
    (hu : sameName u.name name = true) :
    assignIn name value (front ++ u :: behind) = front ++ ⟨u.name, value⟩ :: behind := by
  induction front with
  | nil => exact if_pos hu
  | cons w front ih =>
      rw [List.cons_append, assignIn, hfront w List.mem_cons_self, if_neg Bool.false_ne_true,
        ih fun v hv => hfront v (List.mem_cons_of_mem w hv)]
      rfl

/-- A new value leaves the names as they are. -/
theorem map_name_assignIn (name : String) (value : Value) (vs : List Variable) :
    (assignIn name value vs).map Variable.name = vs.map Variable.name := by
  induction vs with
  | nil => rfl
  | cons v vs ih =>
      rw [assignIn]
      split
      · rfl
      · rw [List.map_cons, List.map_cons, ih]

-- ================================================================ the edits

/-- What is done to the variables of a scope. -/
inductive Edit where
  | add (name : String) (value : Value)
  | set (name : String) (value : Value)
  /-- A new value for a variable that is there. -/
  | update (name : String) (value : Value)
  | remove (name : String)
  | clear

namespace Edit

/-- The scope after an edit. -/
def apply (s : Scope) : Edit → Scope
  | .add name value => s.add name value
  | .set name value => s.set name value
  | .update name value => s.update name value
  | .remove name => s.remove name
  | .clear => .empty

/-- What an edit does to a map. -/
def write (m : String → Option Value) : Edit → String → Option Value
  | .add name value =>
    if (m (asciiFold name)).isSome then m else Function.update m (asciiFold name) (some value)
  | .set name value => Function.update m (asciiFold name) (some value)
  | .update name value =>
    if (m (asciiFold name)).isSome then Function.update m (asciiFold name) (some value) else m
  | .remove name => Function.update m (asciiFold name) none
  | .clear => fun _ => none

/-- What an edit does to a list of variables. The others keep their places, their
spelling and their values. -/
inductive Changes : Edit → List Variable → List Variable → Prop
  /-- A variable is added behind the others, whatever their names. -/
  | added {name value vs} : Changes (.add name value) vs (vs ++ [⟨name, value⟩])
  | appended {name value vs} (absent : ∀ u ∈ vs, sameName u.name name = false) :
      Changes (.set name value) vs (vs ++ [⟨name, value⟩])
  /-- The first variable of the name keeps its spelling. -/
  | replaced {name value front u behind} (before : ∀ w ∈ front, sameName w.name name = false)
      (named : sameName u.name name = true) :
      Changes (.set name value) (front ++ u :: behind) (front ++ ⟨u.name, value⟩ :: behind)
  | missed {name value vs} (absent : ∀ u ∈ vs, sameName u.name name = false) :
      Changes (.update name value) vs vs
  | updated {name value front u behind} (before : ∀ w ∈ front, sameName w.name name = false)
      (named : sameName u.name name = true) :
      Changes (.update name value) (front ++ u :: behind) (front ++ ⟨u.name, value⟩ :: behind)
  /-- All variables of the name go. -/
  | removed {name vs} : Changes (.remove name) vs (vs.filter fun u => !sameName u.name name)
  | cleared {vs} : Changes .clear vs []

/-- An edit of a scope is what it writes to the map. -/
theorem view_apply (s : Scope) (e : Edit) : (e.apply s).view = e.write s.view := by
  cases e with
  | add name value => exact view_add s name value
  | set name value => exact view_set s name value
  | update name value => exact view_update s name value
  | remove name => exact view_remove s name
  | clear => rfl

/-- What is set where the name is missing comes behind the others, and what is set or
updated where it is there replaces the value of the first variable. -/
theorem changes_apply (s : Scope) (e : Edit) : e.Changes s.entries (e.apply s).entries := by
  cases e with
  | add name value => exact .added
  | set name value =>
      rw [apply, Scope.set]
      rcases absent_or_first name s.entries with habsent | ⟨front, u, behind, hs, hu, hfront⟩
      · have hnone : s.find? name = none :=
          List.find?_eq_none.2 fun u hu => Bool.eq_false_iff.1 (habsent u hu)
        rw [hnone, Option.isSome_none, if_neg Bool.false_ne_true]
        exact .appended habsent
      · have hsome : s.find? name = some u :=
          List.find?_eq_some_iff_append.2
            ⟨hu, front, behind, hs, fun w hw => (Bool.not_eq_eq_eq_not ..).2 (hfront w hw)⟩
        rw [hsome, Option.isSome_some, if_pos rfl, Scope.update, hs, assignIn_first hfront hu]
        exact .replaced hfront hu
  | update name value =>
      rw [apply, Scope.update]
      rcases absent_or_first name s.entries with habsent | ⟨front, u, behind, hs, hu, hfront⟩
      · rw [assignIn_of_absent habsent]
        exact .missed habsent
      · rw [hs, assignIn_first hfront hu]
        exact .updated hfront hu
  | remove name => exact .removed
  | clear => exact .cleared

end Edit

-- ============================================================ distinct names

/-- Whether no two variables have the same name. -/
def Distinct (s : Scope) : Prop :=
  s.entries.Pairwise fun u v => sameName u.name v.name = false

theorem distinct_empty : empty.Distinct := .nil

theorem Distinct.add {s : Scope} (h : s.Distinct) {name : String} (hnew : s.find? name = none)
    (value : Value) : (s.add name value).Distinct := by
  refine List.pairwise_append.2 ⟨h, List.pairwise_singleton .., fun u hu v hv => ?_⟩
  rw [List.mem_singleton.1 hv]
  exact Bool.eq_false_iff.2 (List.find?_eq_none.1 hnew u hu)

theorem Distinct.update {s : Scope} (h : s.Distinct) (name : String) (value : Value) :
    (s.update name value).Distinct := by
  have hnames : (s.entries.map Variable.name).Pairwise fun m n => sameName m n = false :=
    List.pairwise_map.2 h
  rw [← map_name_assignIn name value] at hnames
  exact List.pairwise_map.1 hnames

/-- Names stay different under each edit that adds no variable for a name that
is there. -/
theorem Edit.distinct_apply {s : Scope} (h : s.Distinct) {e : Edit}
    (hnew : ∀ name value, e = .add name value → s.find? name = none) : (e.apply s).Distinct := by
  cases e with
  | add name value => exact h.add (hnew name value rfl) value
  | set name value =>
      rw [apply, Scope.set]
      cases hfind : s.find? name with
      | none => exact h.add hfind value
      | some u => exact h.update name value
  | update name value => exact h.update name value
  | remove name => exact h.filter _
  | clear => exact distinct_empty

end Scope

end Formula
