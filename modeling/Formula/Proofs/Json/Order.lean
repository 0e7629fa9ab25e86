/-
The members of objects in order. Insertion keeps the members in the order of
their names, each name once (`Fields.ordered_insert`), so the members of every object
that is read stand so, at any depth (`keepsOrder_parse`), and their names come in the
order of their bytes in UTF-8 (`Fields.Ordered.inByteOrder`). JSON as a value and values
as JSON have the names that they had (`Json.ordered_toValue`, `Json.ordered_ofValue`).

The induction on what is read follows the three readers, which call each other, each
time on less of the text: the lengths noted in the proofs are what it goes by.
-/
import Formula.Json.Reader
import Formula.Proofs.Text.ByteOrder

namespace Formula

namespace Fields

variable {α β : Type}

/-- Whether members stand in the order of the bytes of their names in UTF-8. -/
def InByteOrder (fs : Fields α) : Prop := fs.Pairwise fun m n => utf8Bytes m.1 < utf8Bytes n.1

theorem Ordered.inByteOrder {fs : Fields α} (h : Ordered fs) : fs.InByteOrder :=
  h.imp utf8Bytes_lt

/-- Other values under the same names. -/
theorem Ordered.map {fs : Fields α} (h : Ordered fs) (f : α → β) :
    Ordered (fs.map fun m => (m.1, f m.2)) := List.pairwise_map.2 h

/-- Insertion adds no name but its own. -/
theorem mem_insert {name : String} {value : α} {fs : Fields α} {m : String × α}
    (h : m ∈ insert name value fs) : m = (name, value) ∨ m ∈ fs := by
  induction fs with
  | nil => exact .inl (List.mem_singleton.1 h)
  | cons n fs ih =>
      unfold insert at h
      split at h
      · rcases List.mem_cons.1 h with rfl | h
        · exact .inl rfl
        · exact .inr (List.mem_cons_of_mem n h)
      · split at h
        · exact List.mem_cons.1 h
        · rcases List.mem_cons.1 h with rfl | h
          · exact .inr List.mem_cons_self
          · exact (ih h).imp_right (List.mem_cons_of_mem n)

/-- Members in the order of their names stay so when one is inserted. -/
theorem ordered_insert (name : String) (value : α) {fs : Fields α} (h : Ordered fs) :
    Ordered (insert name value fs) := by
  induction fs with
  | nil => exact List.pairwise_singleton _ _
  | cons n fs ih =>
      obtain ⟨hn, hfs⟩ := List.pairwise_cons.1 h
      unfold insert
      split
      · next heq =>
        have heq' : name = n.1 := heq
        refine List.pairwise_cons.2 ⟨fun m hm => ?_, hfs⟩
        exact heq' ▸ hn m hm
      · next hne =>
        split
        · next hless =>
          have hless' : name < n.1 := hless
          refine List.pairwise_cons.2 ⟨fun m hm => ?_, h⟩
          rcases List.mem_cons.1 hm with rfl | hm
          · exact hless
          · exact String.lt_trans hless (hn m hm)
        · next hnot =>
          refine List.pairwise_cons.2 ⟨fun m hm => ?_, ih hfs⟩
          rcases mem_insert hm with rfl | hm
          · exact Std.lt_of_le_of_ne (Std.not_lt.1 hnot) (Ne.symm hne)
          · exact hn m hm

/-- Whatever order members come in, they are put in that of their names. -/
theorem ordered_ofList (members : List (String × α)) : Ordered (ofList members) := by
  unfold ofList
  refine List.foldlRecOn members _ .nil fun fs h m _ => ?_
  exact ordered_insert m.1 m.2 h

/-- Putting members in order adds none. -/
theorem mem_ofList {members : List (String × α)} {m : String × α} (h : m ∈ ofList members) :
    m ∈ members := by
  refine List.foldlRecOn (motive := fun fs => ∀ m ∈ fs, m ∈ members) members _
    (List.forall_mem_nil _) ?_ m h
  intro fs hfs n hn m hm
  rcases mem_insert hm with rfl | hm
  · exact hn
  · exact hfs m hm

end Fields

namespace Json

-- ================================================================= objects

section

variable {members : List (String × Json)} (h : Ordered (.object members))

include h

theorem Ordered.fields : Fields.Ordered members := by
  cases h with
  | object hfields _ => exact hfields

theorem Ordered.member {m : String × Json} (hm : m ∈ members) : m.2.Ordered := by
  cases h with
  | object _ hmembers => exact hmembers m hm

end

/-- An object of members that are put in order. -/
theorem ordered_ofList {members : List (String × Json)} (h : ∀ m ∈ members, m.2.Ordered) :
    Ordered (.object (Fields.ofList members)) :=
  .object (Fields.ordered_ofList members) fun m hm => h m (Fields.mem_ofList hm)

-- ============================================================ conversions

theorem ofItems_eq_map (vs : List Value) : ofItems vs = vs.map ofValue := by
  induction vs with
  | nil => rfl
  | cons v vs ih => rw [ofItems, ih, List.map_cons]

theorem ofFields_eq_map (ms : List (String × Value)) :
    ofFields ms = ms.map fun m => (m.1, ofValue m.2) := by
  induction ms with
  | nil => rfl
  | cons m ms ih => rw [ofFields, ih, List.map_cons]

theorem toItems_eq_map (js : List Json) : toItems js = js.map toValue := by
  induction js with
  | nil => rfl
  | cons j js ih => rw [toItems, ih, List.map_cons]

theorem toFields_eq_map (ms : List (String × Json)) :
    toFields ms = ms.map fun m => (m.1, toValue m.2) := by
  induction ms with
  | nil => rfl
  | cons m ms ih => rw [toFields, ih, List.map_cons]

/-- A value as JSON keeps the order of members. -/
theorem ordered_ofValue {v : Value} (h : v.Ordered) : (ofValue v).Ordered := by
  induction h with
  | null => exact .null
  | boolean b => exact .boolean b
  | integer n => exact .integer n.toInt
  | float x =>
      rw [ofValue]
      split
      · exact .float x
      · exact .null
  | string s => exact .string s
  | array _ ih =>
      rw [ofValue, ofItems_eq_map]
      exact .array (List.forall_mem_map.2 ih)
  | object hfields _ ih =>
      rw [ofValue, ofFields_eq_map]
      exact .object (hfields.map ofValue) (List.forall_mem_map.2 ih)

/-- JSON as a value keeps the order of members. -/
theorem ordered_toValue {j : Json} (h : j.Ordered) : (toValue j).Ordered := by
  induction h with
  | null => exact .null
  | boolean b => exact .boolean b
  | integer n =>
      rw [toValue, integerValue]
      split
      · exact .integer _
      · exact .float _
  | float x => exact .float x
  | string s => exact .string s
  | array _ ih =>
      rw [toValue, toItems_eq_map]
      exact .array (List.forall_mem_map.2 ih)
  | object hfields _ ih =>
      rw [toValue, toFields_eq_map]
      exact .object (hfields.map toValue) (List.forall_mem_map.2 ih)

-- ================================================================= reading

theorem ordered_numeral {n : Numeral} {j : Json} (h : n.value? = some j) : j.Ordered := by
  unfold Numeral.value? at h
  split at h
  · cases h
    exact .integer _
  · obtain ⟨x, -, rfl⟩ := Option.map_eq_some_iff.1 h
    exact .float _

theorem ordered_word {c : Char} {r : List Char} {w : Json × Nat} (h : word? c r = some w) :
    w.1.Ordered := by
  unfold word? at h
  split at h
  · cases h
    exact .null
  split at h
  · cases h
    exact .boolean true
  split at h
  · cases h
    exact .boolean false
  · cases h

mutual

/-- The members of objects in a value that is read are in order. -/
theorem ordered_value {depth : Nat} {cs : List Char} {t : Read Json cs.length}
    (h : value? depth cs = some t) : t.value.Ordered := by
  unfold value? at h
  split at h
  · cases h
  next c r hcs =>
  have hr : r.length < cs.length := length_lt_of_skipSpace hcs
  split at h
  -- a text
  · obtain ⟨s, -, rfl⟩ := Option.map_eq_some_iff.1 h
    exact .string _
  split at h
  -- an array
  · split at h
    · cases h
    · obtain ⟨items, hitems, rfl⟩ := Option.map_eq_some_iff.1 h
      exact .array (ordered_items hitems)
  split at h
  -- an object
  · split at h
    · cases h
    · obtain ⟨members, hmembers, rfl⟩ := Option.map_eq_some_iff.1 h
      exact ordered_ofList (ordered_members hmembers)
  split at h
  -- a number, or else a word
  · split at h
    · cases h
    · obtain ⟨j, hj, rfl⟩ := Option.map_eq_some_iff.1 h
      exact ordered_numeral hj
  · obtain ⟨w, hw, rfl⟩ := Option.map_eq_some_iff.1 h
    exact ordered_word hw
termination_by 2 * cs.length

theorem ordered_items {depth : Nat} {first : Bool} {cs : List Char}
    {t : Read (List Json) cs.length} (h : items? depth first cs = some t) :
    ∀ j ∈ t.value, j.Ordered := by
  unfold items? at h
  split at h
  · cases h
  next c r hcs =>
  have hr : r.length < cs.length := length_lt_of_skipSpace hcs
  split at h
  · cases h
    exact nofun
  split at h
  -- the first item, or one behind a comma
  · split at h
    · cases h
    next v hv =>
    have hshort : v.rest.length < r.length + 1 := v.short
    obtain ⟨items, hitems, rfl⟩ := Option.map_eq_some_iff.1 h
    exact List.forall_mem_cons.2 ⟨ordered_value hv, ordered_items hitems⟩
  split at h
  · split at h
    · cases h
    next v hv =>
    have hshort := v.short
    obtain ⟨items, hitems, rfl⟩ := Option.map_eq_some_iff.1 h
    exact List.forall_mem_cons.2 ⟨ordered_value hv, ordered_items hitems⟩
  · cases h
termination_by 2 * cs.length + 1

theorem ordered_members {depth : Nat} {first : Bool} {cs : List Char}
    {t : Read (List (String × Json)) cs.length} (h : members? depth first cs = some t) :
    ∀ m ∈ t.value, m.2.Ordered := by
  unfold members? at h
  split at h
  · cases h
  next c r hcs =>
  have hr : r.length < cs.length := length_lt_of_skipSpace hcs
  split at h
  · cases h
    exact nofun
  split at h
  · next q hq =>
    have hlength := length_lt_of_memberStart hq hr
    split at h
    · cases h
    next name hname =>
    have hafter := name.short
    split at h
    · next b hb =>
      have hbehind := length_lt_of_skipSpace hb
      split at h
      · cases h
      next v hv =>
      have hshort := v.short
      obtain ⟨members, hmembers, rfl⟩ := Option.map_eq_some_iff.1 h
      exact List.forall_mem_cons.2 ⟨ordered_value hv, ordered_members hmembers⟩
    · cases h
  · cases h
termination_by 2 * cs.length + 1

end

/-- What is relied on in a reader of JSON: the members of objects come in order. -/
def Reader.KeepsOrder (read? : Reader) : Prop := ∀ text j, read? text = some j → j.Ordered

/-- Members are put in order at every depth when a text is read. -/
theorem keepsOrder_parse : Reader.KeepsOrder parse? := by
  intro text j h
  unfold parse? at h
  split at h
  · next t ht =>
    split at h
    · exact Option.some.inj h ▸ ordered_value ht
    · cases h
  · cases h

end Json

end Formula
