/-
How readers find operators, tied to the tables of the grammar: the joint
found at a symbol is the entry whose marks the symbols begin with
(`joints_eq_find`). That no entry's marks begin another's, and that no mark
begins operators of two levels except where one level is never an operand
of the other, is checked on the tables; what readers need follows.
-/
import Formula.Proofs.Expr.Phrase

namespace Formula

namespace Expr

-- ================================================================ look-up

namespace Level

/-- How readers find the operators of a level. -/
def joints : Level → Joints
  | logical => logicalJoints
  | relational => relationalJoints
  | additive => additiveJoints
  | multiplicative => multiplicativeJoints
  | power => powerJoints

/-- The entry of a table that parts begin with. -/
def row? (k : Level) (parts : List Part) : Option (List Part × Joint) :=
  k.table.find? fun e => e.1.isPrefixOf parts

theorem mem_of_row? {k : Level} {parts : List Part} {e : List Part × Joint}
    (h : k.row? parts = some e) : e ∈ k.table ∧ e.1 <+: parts := by
  refine ⟨List.mem_of_find?_eq_some h, ?_⟩
  have hpre : e.1.isPrefixOf parts = true := by
    have := List.find?_some h
    exact this
  exact List.isPrefixOf_iff_prefix.mp hpre

theorem not_begins_of_row? {k : Level} {parts : List Part}
    (h : k.row? parts = none) : ∀ e ∈ k.table, ¬e.1 <+: parts := by
  intro e he hpre
  exact List.find?_eq_none.mp h e he (List.isPrefixOf_iff_prefix.mpr hpre)

/-- Readers look operators up in the table of their level. -/
theorem joints_eq_find (k : Level) (s : Symbol) (ss : List Symbol) :
    k.joints s ss
      = (k.row? ((s :: ss).map Symbol.part)).map
          fun e => (e.2, e.1.length - 1) := by
  rw [List.map_cons]
  cases k with
  | logical =>
      show logicalJoints s ss = _
      unfold logicalJoints single
      cases s.part <;> rfl
  | relational =>
      show relationalJoints s ss = _
      unfold relationalJoints single
      cases s.part <;> rfl
  | multiplicative =>
      show multiplicativeJoints s ss = _
      unfold multiplicativeJoints single
      cases s.part <;> rfl
  | power =>
      show powerJoints s ss = _
      unfold powerJoints single
      cases s.part <;> rfl
  | additive =>
      show additiveJoints s ss = _
      unfold additiveJoints
      -- only `NOT` and `IS` look at what comes after them
      generalize ss.map Symbol.part = parts
      cases s.part with
      | not =>
          cases parts with
          | nil => rfl
          | cons p parts => cases p <;> rfl
      | is =>
          cases parts with
          | nil => rfl
          | cons p parts =>
              cases p with
              | not =>
                  cases parts with
                  | nil => rfl
                  | cons q parts => cases q <;> rfl
              | _ => rfl
      | _ => rfl

/-- An operator of a level is not the beginning of another one. -/
theorem table_prefixFree (k : Level) :
    ∀ e ∈ k.table, ∀ f ∈ k.table, e.1.isPrefixOf f.1 = true → e = f := by
  cases k <;> decide

/-- Operators are spelled by at least one symbol. -/
theorem table_ne_nil (k : Level) : ∀ e ∈ k.table, e.1 ≠ [] := by
  cases k <;> decide

/-- The joint that a reader finds is spelled by the symbol it begins with
and those that belong to it. -/
theorem spells_of_joints {k : Level} {s : Symbol} {ss : List Symbol}
    {j : Joint} {n : Nat} (hj : k.joints s ss = some (j, n)) :
    k.Spells (s :: ss.take n) j := by
  rw [joints_eq_find] at hj
  obtain ⟨e, he, hej⟩ := Option.map_eq_some_iff.mp hj
  obtain ⟨rfl, rfl⟩ := Prod.mk.inj hej
  obtain ⟨hmem, hpre⟩ := mem_of_row? he
  have hmarks : e.1 = ((s :: ss).map Symbol.part).take e.1.length :=
    List.prefix_iff_eq_take.mp hpre
  have hlength : e.1.length = e.1.length - 1 + 1 := by
    have := List.length_pos_iff.mpr (table_ne_nil k e hmem)
    omega
  have hspelled : (s :: ss.take (e.1.length - 1)).map Symbol.part = e.1 := by
    rw [hmarks, ← List.map_take, hlength, List.take_succ_cons]
    simp
  show ((s :: ss.take (e.1.length - 1)).map Symbol.part, e.2) ∈ k.table
  rw [hspelled]
  exact hmem

/-- Readers find every operator that is spelled. -/
theorem joints_of_spells {k : Level} {s : Symbol} {ms : List Symbol}
    {j : Joint} (h : k.Spells (s :: ms) j) (rest : List Symbol) :
    k.joints s (ms ++ rest) = some (j, ms.length) := by
  have hmem : ((s :: ms).map Symbol.part, j) ∈ k.table := h
  have hbegin : ((s :: ms).map Symbol.part)
      <+: ((s :: (ms ++ rest)).map Symbol.part) := by
    simp
  rw [joints_eq_find]
  cases hf : k.row? ((s :: (ms ++ rest)).map Symbol.part) with
  | none =>
      exact absurd hbegin (not_begins_of_row? hf _ hmem)
  | some e =>
      -- both entries begin the same symbols, so one begins the other
      obtain ⟨hemem, hebegin⟩ := mem_of_row? hf
      have he : e = ((s :: ms).map Symbol.part, j) := by
        rcases List.prefix_or_prefix_of_prefix hebegin hbegin with hp | hp
        · exact table_prefixFree k e hemem _ hmem
            (List.isPrefixOf_iff_prefix.mpr hp)
        · exact (table_prefixFree k _ hmem e hemem
            (List.isPrefixOf_iff_prefix.mpr hp)).symm
      rw [he]
      simp

/-- Where the first mark is none of a level's, nothing is joined. -/
theorem joints_eq_none {k : Level} {s : Symbol} {ss : List Symbol}
    (h : ∀ e ∈ k.table, e.1.head? ≠ some s.part) :
    k.joints s ss = none := by
  rw [joints_eq_find, Option.map_eq_none_iff]
  refine List.find?_eq_none.mpr fun e he hpre => ?_
  have hbegin := List.isPrefixOf_iff_prefix.mp hpre
  cases hmarks : e.1 with
  | nil => exact table_ne_nil k e he hmarks
  | cons m ms =>
      rw [hmarks, List.map_cons, List.cons_prefix_cons] at hbegin
      refine h e he ?_
      rw [hmarks, hbegin.1]
      rfl

end Level

-- ============================================================ what follows

namespace Phrase

/-- The levels whose operators would carry a phrase on. -/
def levels : Phrase → List Level
  | .chain .logical =>
    [.logical, .relational, .additive, .multiplicative, .power]
  | .chain .relational => [.relational, .additive, .multiplicative, .power]
  | .chain .additive => [.additive, .multiplicative, .power]
  | .chain .multiplicative => [.multiplicative, .power]
  | .chain .power => [.power]
  | .negation => [.relational, .additive, .multiplicative, .power]
  | .primary => []
  | .indexed => []

/-- Whether a phrase that was read up to some symbols ends there: they
begin no operator that would carry it on, no index and no arguments. -/
def Ends (p : Phrase) : List Symbol → Prop
  | [] => True
  | s :: ss =>
    s.part ≠ .leftParen ∧ s.part ≠ .leftBracket
      ∧ ∀ k ∈ p.levels, k.joints s ss = none

theorem levels_chain (k : Level) :
    (Phrase.chain k).levels = k :: k.operand.levels := by
  cases k <;> rfl

/-- What ends a chain ends the operands of it. -/
theorem ends_operand {k : Level} {ss : List Symbol}
    (h : (Phrase.chain k).Ends ss) : k.operand.Ends ss := by
  cases ss with
  | nil => trivial
  | cons s ss =>
      obtain ⟨hparen, hbracket, hlevels⟩ := h
      rw [levels_chain] at hlevels
      exact ⟨hparen, hbracket,
        fun k' hk' => hlevels k' (List.mem_cons_of_mem _ hk')⟩

/-- What ends a chain is joined to nothing on its own level. -/
theorem joints_of_ends {k : Level} {s : Symbol} {ss : List Symbol}
    (h : (Phrase.chain k).Ends (s :: ss)) : k.joints s ss = none := by
  refine h.2.2 k ?_
  rw [levels_chain]
  exact List.mem_cons_self ..

/-- No operator begins with a mark of an operator of a tighter level. -/
private theorem table_heads (k : Level) :
    ∀ e ∈ k.table, e.1.head? ≠ some .leftParen ∧ e.1.head? ≠ some .leftBracket
      ∧ ∀ k' ∈ k.operand.levels, ∀ f ∈ k'.table, f.1.head? ≠ e.1.head? := by
  cases k <;> decide

/-- Operators of a level end the operands of it. -/
theorem ends_of_spells {k : Level} {s : Symbol} {ms : List Symbol}
    {j : Joint} (h : k.Spells (s :: ms) j) (rest : List Symbol) :
    k.operand.Ends (s :: rest) := by
  obtain ⟨hparen, hbracket, hlevels⟩ := table_heads k _ h
  refine ⟨fun hs => hparen ?_, fun hs => hbracket ?_,
    fun k' hk' => Level.joints_eq_none (hlevels k' hk')⟩
  · rw [List.map_cons, hs]
    rfl
  · rw [List.map_cons, hs]
    rfl

/-- The marks that close a phrase, whatever it is. -/
def closers : List Part := [.rightParen, .rightBracket, .comma]

/-- Closing marks begin no operator. -/
private theorem closers_join_nothing (k : Level) :
    ∀ part ∈ closers, ∀ e ∈ k.table, e.1.head? ≠ some part := by
  cases k <;> decide

/-- Every phrase ends before a closing mark. -/
theorem ends_of_closer (p : Phrase) {s : Symbol} (hs : s.part ∈ closers)
    (rest : List Symbol) : p.Ends (s :: rest) := by
  refine ⟨fun h => ?_, fun h => ?_,
    fun k _ => Level.joints_eq_none (closers_join_nothing k _ hs)⟩
  · rw [h] at hs
    exact absurd hs (by decide)
  · rw [h] at hs
    exact absurd hs (by decide)

end Phrase

end Expr

end Formula
