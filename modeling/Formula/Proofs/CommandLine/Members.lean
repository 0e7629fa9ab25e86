/-
The members of objects on the command line. Variables are loaded from JSON objects and
trees of templates are shown as JSON objects, both with members in order of their names,
each name once, at any depth.

After any calls, every variable holds such a value (`ordered_after`): an edit keeps it
so for every variable but its own (`Edit.ordered_apply`), and loading sets what a reader
gives, converted (`Call.ordered_edits`). What is shown of a template is such JSON
(`ordered_template`).
-/
import Formula.Proofs.CommandLine.Variables

namespace Formula

-- =================================================================== edits

namespace Scope

/-- Whether the members of objects are in order in the values of all variables. -/
def Ordered (s : Scope) : Prop := ∀ u ∈ s.entries, u.value.Ordered

theorem ordered_empty : empty.Ordered := List.forall_mem_nil _

namespace Edit

/-- Whether they are in the value that an edit gives, if it gives one. -/
def Ordered : Edit → Prop
  | .add _ value | .set _ value | .update _ value => value.Ordered
  | .remove _ | .clear => True

/-- What an edit leaves as it is stays in order, and what it gives is. -/
theorem Changes.ordered {e : Edit} {vs ws : List Variable} (h : e.Changes vs ws)
    (he : e.Ordered) (hvs : ∀ u ∈ vs, u.value.Ordered) : ∀ u ∈ ws, u.value.Ordered := by
  cases h with
  | added | appended =>
      rw [List.forall_mem_append, List.forall_mem_singleton]
      exact ⟨hvs, he⟩
  | replaced | updated =>
      rw [List.forall_mem_append, List.forall_mem_cons] at hvs ⊢
      exact ⟨hvs.1, he, hvs.2.2⟩
  | missed => exact hvs
  | removed => exact fun u hu => hvs u (List.mem_filter.1 hu).1
  | cleared => exact List.forall_mem_nil _

theorem ordered_apply {s : Scope} {e : Edit} (he : e.Ordered) (hs : s.Ordered) :
    (e.apply s).Ordered := (e.changes_apply s).ordered he hs

theorem ordered_foldl {es : List Edit} (hes : ∀ e ∈ es, e.Ordered) {s : Scope}
    (hs : s.Ordered) : (es.foldl apply s).Ordered :=
  List.foldlRecOn es apply hs fun _ hs e he => ordered_apply (hes e he) hs

end Edit

end Scope

namespace CommandLine

-- =================================================================== calls

section

variable {read? : Json.Reader} (hread : read?.KeepsOrder)

include hread

/-- The edits that loading amounts to give members in order. -/
theorem Call.ordered_edits {c : Call} (hc : ∀ e, c = .edit e → e.Ordered) :
    ∀ e ∈ c.edits read?, e.Ordered := by
  cases c with
  | edit e =>
      rw [edits, List.forall_mem_singleton]
      exact hc e rfl
  | load json =>
      rw [edits]
      split
      · next fields hjson =>
        refine List.forall_mem_map.2 fun m hm => ?_
        exact Json.ordered_toValue ((hread json _ hjson).member hm)
      · exact List.forall_mem_nil _

/-- After any calls the members of objects are in order in the values of all variables,
if they are in the values that edits give. -/
theorem ordered_after {calls : List Call} (h : ∀ e, .edit e ∈ calls → e.Ordered) :
    (after read? calls).Ordered := by
  rw [after, foldl_apply]
  refine Scope.Edit.ordered_foldl (fun e he => ?_) Scope.ordered_empty
  obtain ⟨c, hc, he⟩ := List.mem_flatMap.1 he
  exact Call.ordered_edits hread (fun e heq => h e (heq ▸ hc)) e he

end

-- =============================================================== templates

theorem ordered_textOrNull (s : Option String) : (textOrNull s).Ordered := by
  cases s with
  | none => exact .null
  | some s => exact .string s

mutual

/-- The members of a node, whether it has children or not, are put in order. -/
theorem ordered_nodeJson (n : Template.Node) : (nodeJson n).Ordered := by
  cases n with
  | mk p children =>
      have hplain : ∀ m ∈ [("type", Json.string p.kind.name), ("value", textOrNull p.text),
          ("line", .integer p.place.line), ("column", .integer p.place.column)], m.2.Ordered := by
        simp only [List.forall_mem_cons]
        exact ⟨.string _, ordered_textOrNull _, .integer _, .integer _, List.forall_mem_nil _⟩
      cases children with
      | nil =>
          rw [nodeJson]
          exact Json.ordered_ofList (List.forall_mem_append.2 ⟨hplain, List.forall_mem_nil _⟩)
      | cons n ns =>
          rw [nodeJson]
          refine Json.ordered_ofList (List.forall_mem_append.2 ⟨hplain, ?_⟩)
          rw [List.forall_mem_singleton]
          exact .array (List.forall_mem_cons.2 ⟨ordered_nodeJson n, ordered_nodesJson ns⟩)

theorem ordered_nodesJson (ns : List Template.Node) : ∀ j ∈ nodesJson ns, j.Ordered := by
  cases ns with
  | nil => exact List.forall_mem_nil _
  | cons n ns =>
      rw [nodesJson]
      exact List.forall_mem_cons.2 ⟨ordered_nodeJson n, ordered_nodesJson ns⟩

end

/-- The members of every object in what is shown of a template are in order. -/
theorem ordered_template {text : String} {j : Json} (h : template text = .ok j) : j.Ordered := by
  unfold template at h
  cases hparsed : Template.Parsed.ofText text with
  | error fault =>
      rw [hparsed] at h
      cases h
  | ok t =>
      rw [hparsed] at h
      cases h
      refine Json.ordered_ofList ?_
      simp only [List.forall_mem_cons]
      refine ⟨.array (ordered_nodesJson t.nodes), .array ?_, List.forall_mem_nil _⟩
      exact List.forall_mem_map.2 fun name _ => .string name

end CommandLine

end Formula
