/-
Variables after any calls. A call edits one variable, clears them all, or loads
the members of a JSON object. A text that is refused changes nothing, and loading an
object sets its members one after another (`loadVariablesWith_object`), so that every
call amounts to edits (`Call.apply_eq`). How JSON is read is left to a reader, of which
only the order of members is relied on.

The variables after any calls are then the map that these edits write
(`scope_is_map`), whichever names are shadowed on the way.
-/
import Formula.CommandLine.Commands
import Formula.Proofs.Expr.Edits
import Formula.Proofs.Json.Order
import Mathlib.Data.List.Induction

namespace Formula.CommandLine

open Scope (Edit)

-- =============================================================== the calls

/-- What is done to variables. -/
inductive Call where
  | edit (e : Edit)
  /-- The members of a JSON object are read as variables. -/
  | load (json : String)

namespace Call

/-- The scope after a call, whether or not it fails. -/
def apply (read? : Json.Reader) (s : Scope) : Call → Scope
  | .edit e => e.apply s
  | .load json =>
    match loadVariablesWith read? json s with
    | .ok () s => s
    | .error _ s => s

/-- The edits that a call amounts to. -/
def edits (read? : Json.Reader) : Call → List Edit
  | .edit e => [e]
  | .load json =>
    match read? json with
    | some (.object fields) => fields.map fun m => .set m.1 m.2.toValue
    | _ => []

end Call

/-- The variables after calls, with none to begin with. -/
def after (read? : Json.Reader) (calls : List Call) : Scope :=
  calls.foldl (Call.apply read?) .empty

/-- Whether no variable is added for a name that is there. -/
def AddsNew (read? : Json.Reader) (calls : List Call) : Prop :=
  ∀ before name value behind, calls = before ++ .edit (.add name value) :: behind →
    (after read? before).find? name = none

variable {read? : Json.Reader}

-- ================================================================ loading

theorem set_members (fields : List (String × Json)) (s : Scope) :
    (fields.forM fun m => modify fun s => s.set m.1 m.2.toValue : EStateM Failure Scope Unit) s
      = .ok () ((fields.map fun m => Edit.set m.1 m.2.toValue).foldl Edit.apply s) := by
  induction fields generalizing s with
  | nil => rfl
  | cons m fields ih => exact ih (s.set m.1 m.2.toValue)

theorem loadVariablesWith_object {json : String} {fields : List (String × Json)}
    (h : read? json = some (.object fields)) (s : Scope) :
    loadVariablesWith read? json s
      = .ok () ((fields.map fun m => Edit.set m.1 m.2.toValue).foldl Edit.apply s) := by
  rw [loadVariablesWith, h]
  exact set_members fields s

/-- A call is the edits it amounts to, one after another. -/
theorem Call.apply_eq (s : Scope) (c : Call) :
    c.apply read? s = (c.edits read?).foldl Edit.apply s := by
  cases c with
  | edit e => rfl
  | load json =>
      rw [apply, edits]
      cases hread : read? json with
      | none => rw [loadVariablesWith, hread]; rfl
      | some j =>
          cases j with
          | object fields => rw [loadVariablesWith_object hread]
          | _ => rw [loadVariablesWith, hread]; rfl

theorem foldl_apply (calls : List Call) (s : Scope) :
    calls.foldl (Call.apply read?) s = (calls.flatMap (Call.edits read?)).foldl Edit.apply s := by
  induction calls generalizing s with
  | nil => rfl
  | cons c calls ih => rw [List.foldl_cons, List.flatMap_cons, List.foldl_append, ih, c.apply_eq]

/-- Members that are set by calls of their own. -/
theorem after_append_sets (calls : List Call) (fields : List (String × Json)) :
    after read? (calls ++ fields.map fun m => .edit (.set m.1 m.2.toValue))
      = (fields.map fun m => Edit.set m.1 m.2.toValue).foldl Edit.apply (after read? calls) := by
  unfold after
  rw [List.foldl_append, List.foldl_map, List.foldl_map]
  rfl

/-- The map after edits is what they write one after another. -/
theorem view_foldl (es : List Edit) (s : Scope) :
    (es.foldl Edit.apply s).view = es.foldl Edit.write s.view := by
  induction es generalizing s with
  | nil => rfl
  | cons e es ih => rw [List.foldl_cons, List.foldl_cons, ih, e.view_apply]

-- ============================================================ distinct names

/-- Loading adds only what is missing. -/
theorem not_add_of_load {json name : String} {value : Value} :
    Edit.add name value ∉ (Call.load json).edits read? := by
  intro hmem
  rw [Call.edits] at hmem
  split at hmem
  · obtain ⟨m, -, hm⟩ := List.mem_map.1 hmem
    cases hm
  · cases hmem

theorem distinct_foldl {es : List Edit} (hes : ∀ name value, Edit.add name value ∉ es)
    {s : Scope} (h : s.Distinct) : (es.foldl Edit.apply s).Distinct := by
  induction es generalizing s with
  | nil => exact h
  | cons e es ih =>
      refine ih (fun name value hmem => hes name value (List.mem_cons_of_mem e hmem)) ?_
      refine Edit.distinct_apply h ?_
      rintro name value rfl
      exact absurd List.mem_cons_self (hes name value)

theorem Call.distinct_apply {s : Scope} (h : s.Distinct) {c : Call}
    (hnew : ∀ name value, c = .edit (.add name value) → s.find? name = none) :
    (c.apply read? s).Distinct := by
  cases c with
  | edit e => exact Edit.distinct_apply h fun name value he => hnew name value (congrArg edit he)
  | load json =>
      rw [apply_eq]
      exact distinct_foldl (fun name value => not_add_of_load) h

theorem distinct_after {calls : List Call} (h : AddsNew read? calls) :
    (after read? calls).Distinct := by
  induction calls using List.reverseRecOn with
  | nil => exact Scope.distinct_empty
  | append_singleton calls c ih =>
      have hbefore : AddsNew read? calls := by
        intro before name value behind hcalls
        refine h before name value (behind ++ [c]) ?_
        rw [hcalls, List.append_assoc, List.cons_append]
      rw [after, List.foldl_append]
      refine Call.distinct_apply (ih hbefore) ?_
      rintro name value rfl
      exact h calls name value [] rfl

-- ================================================================= the map

/-- Variables are a map from names to values, names that differ only in the case of
ASCII letters being the same. After any calls, looking a name up reads the map,
whatever its case; the map is what the calls wrote one after another; each further
edit writes at its own name only, and leaves the order and spelling of the other
variables as they are; and loading either is refused and changes nothing, or sets the
members of an object in the order of the bytes of their names. No two variables have
the same name if none was added for a name that was there. -/
theorem scope_is_map (hread : read?.KeepsOrder) (calls : List Call) :
    (∀ name, ((after read? calls).find? name).map Variable.value
        = (after read? calls).view (asciiFold name))
    ∧ (∀ m n, sameName m n = true → (after read? calls).find? m = (after read? calls).find? n)
    ∧ (after read? calls).view
        = (calls.flatMap (Call.edits read?)).foldl Edit.write (fun _ => none)
    ∧ (∀ e : Edit,
        after read? (calls ++ [.edit e]) = e.apply (after read? calls)
        ∧ (e.apply (after read? calls)).view = e.write (after read? calls).view
        ∧ e.Changes (after read? calls).entries (e.apply (after read? calls)).entries)
    ∧ (∀ json, match read? json with
        | some (.object fields) =>
          loadVariablesWith read? json (after read? calls)
              = .ok () (after read? (calls ++ fields.map fun m => .edit (.set m.1 m.2.toValue)))
          ∧ Fields.InByteOrder fields
        | some _ => loadVariablesWith read? json (after read? calls)
            = .error (.notAnObject (trimText json)) (after read? calls)
        | none => loadVariablesWith read? json (after read? calls)
            = .error .invalidJson (after read? calls))
    ∧ (AddsNew read? calls →
        (after read? calls).entries.Pairwise fun u v => sameName u.name v.name = false) := by
  refine ⟨(after read? calls).map_find?, fun m n => (after read? calls).find?_congr, ?_,
    fun e => ⟨?_, ?_, ?_⟩, fun json => ?_, distinct_after⟩
  · rw [after, foldl_apply, view_foldl]
    rfl
  · exact List.foldl_append ..
  · exact e.view_apply (after read? calls)
  · exact e.changes_apply (after read? calls)
  · cases hjson : read? json with
    | none => rw [loadVariablesWith, hjson]; rfl
    | some j =>
        cases j with
        | object fields =>
            have hfields : Fields.Ordered fields := (hread json _ hjson).fields
            refine ⟨?_, hfields.inByteOrder⟩
            rw [loadVariablesWith_object hjson, after_append_sets]
        | _ => dsimp only; rw [loadVariablesWith, hjson]; rfl

/-- A variable that is removed may be added once more, in another spelling. -/
theorem scope_is_map_readded :
    let calls : List Call := [.edit (.add "Price" (.integer 1)), .edit (.set "PRICE" (.integer 2)),
      .edit (.remove "price"), .edit (.add "pRICE" (.integer 3)), .load "[1]"]
    Json.Reader.KeepsOrder Json.parse? ∧ AddsNew Json.parse? calls
    ∧ (after Json.parse? calls).entries.Pairwise fun u v => sameName u.name v.name = false := by
  intro calls
  have hnew : AddsNew Json.parse? calls := by
    intro before name value behind h
    rcases before with _ | ⟨_, _ | ⟨_, _ | ⟨_, _ | ⟨_, _ | ⟨_, before⟩⟩⟩⟩⟩ <;>
      simp only [calls, List.nil_append, List.cons_append, List.cons.injEq, Call.edit.injEq,
        Edit.add.injEq, reduceCtorEq, false_and, and_false, List.nil_eq_append_iff] at h
    · obtain ⟨⟨rfl, -⟩, -⟩ := h
      rfl
    · obtain ⟨rfl, rfl, rfl, ⟨rfl, -⟩, -⟩ := h
      rfl
  exact ⟨Json.keepsOrder_parse, hnew, (scope_is_map Json.keepsOrder_parse calls).2.2.2.2.2 hnew⟩

end Formula.CommandLine
