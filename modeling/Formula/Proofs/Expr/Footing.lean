/-
What instructions find on the stack. Before the root of a subtree is
reached, the values of its operands have been computed, and they are on top
of the stack (`footed`). Every instruction of compiled code therefore finds
what it takes (`served_of_code`), and code that does not fail leaves a
single value (`values_of_run`); both together are what makes code `Steady`.

`Served` says what an instruction takes and where a count comes from: it is
the constant right before the function or array that takes it, and as many
values are below it.
-/
import Mathlib.Data.List.Basic
import Formula.Proofs.Expr.Simulation

namespace Formula

namespace Expr

variable {ctx : Context}

-- ================================================================== splits

/-- The one item of a list has nothing before it. -/
private theorem single_split {α : Type} {a b : α} {inner outer : List α}
    (h : [a] = inner ++ b :: outer) : inner = [] ∧ a = b := by
  cases inner with
  | nil =>
      cases h
      exact ⟨rfl, rfl⟩
  | cons c inner => exact absurd h (by simp)

/-- The items of a pair have nothing, or the first one, before them. -/
private theorem pair_split {α : Type} {a b c : α} {inner outer : List α}
    (h : [a, b] = inner ++ c :: outer) :
    (inner = [] ∧ a = c) ∨ (inner = [a] ∧ b = c) := by
  cases inner with
  | nil =>
      cases h
      exact .inl ⟨rfl, rfl⟩
  | cons d inner =>
      injection h with hd h
      obtain ⟨rfl, rfl⟩ := single_split h
      exact .inr ⟨by rw [hd], rfl⟩

/-- An item of a flattened list is an item of the list of one member. -/
private theorem split_flatMap {α β : Type} {f : α → List β} {xs : List α}
    {before after : List β} {b : β}
    (h : xs.flatMap f = before ++ b :: after) :
    ∃ us x ws inner outer, xs = us ++ x :: ws
      ∧ f x = inner ++ b :: outer ∧ before = us.flatMap f ++ inner := by
  induction xs generalizing before with
  | nil => exact absurd h (by simp)
  | cons x xs ih =>
      rw [List.flatMap_cons] at h
      rcases List.append_eq_append_iff.mp h with
        ⟨mid, rfl, hrest⟩ | ⟨mid, hx, hrest⟩
      · obtain ⟨us, y, ws, inner, outer, rfl, hy, rfl⟩ := ih hrest
        exact ⟨x :: us, y, ws, inner, outer, rfl, hy, by simp⟩
      · cases mid with
        | nil =>
            obtain ⟨us, y, ws, inner, outer, rfl, hy, hnil⟩ :=
              ih (show xs.flatMap f = [] ++ b :: after from hrest.symm)
            refine ⟨x :: us, y, ws, inner, outer, rfl, hy, ?_⟩
            rw [List.flatMap_cons, List.append_assoc, ← hnil, hx]
            simp
        | cons b' mid =>
            injection hrest with hb _
            subst hb
            exact ⟨[], x, xs, before, mid, rfl, hx, rfl⟩

-- ================================================================= footing

/-- Wherever a run through some nodes comes to a node, the values of its
operands are on top, not more than can be counted. -/
def Footed (ctx : Context) (s : Stack) (nodes : List Tree) : Prop :=
  ∀ before node after s', nodes = before ++ node :: after →
    run ctx s (before.flatMap Tree.own) = .ok s' →
    ∃ (base : Stack) (vs : List Value),
      Tree.values ctx node.operands = .ok vs ∧ vs.length < 2 ^ 63
        ∧ s' = base.pushAll vs

/-- No nodes have no node that could be reached. -/
theorem Footed.nil (s : Stack) : Footed ctx s [] := by
  intro before node after s' hsplit _
  cases before with
  | nil => cases hsplit
  | cons u before => cases hsplit

/-- A node is reached at once where it comes first. -/
theorem Footed.single {base s : Stack} {t : Tree} {vs : List Value}
    (hvs : Tree.values ctx t.operands = .ok vs) (hlt : vs.length < 2 ^ 63)
    (hs : s = base.pushAll vs) : Footed ctx s [t] := by
  intro before node after s' hsplit hrun
  obtain ⟨rfl, rfl⟩ := single_split hsplit
  cases hrun
  exact ⟨base, vs, hvs, hlt, hs⟩

/-- Nodes after others are reached once those have run. -/
theorem Footed.append {s : Stack} {us ws : List Tree}
    (hus : Footed ctx s us)
    (hws : ∀ s', run ctx s (us.flatMap Tree.own) = .ok s' →
      Footed ctx s' ws) :
    Footed ctx s (us ++ ws) := by
  intro before node after s' hsplit hrun
  rcases List.append_eq_append_iff.mp hsplit with
    ⟨mid, rfl, hrest⟩ | ⟨mid, rfl, hrest⟩
  · rw [List.flatMap_append, run_append] at hrun
    cases hmid : run ctx s (us.flatMap Tree.own) with
    | error fault => rw [hmid] at hrun; cases hrun
    | ok s₁ =>
        rw [hmid] at hrun
        exact hws s₁ hmid mid node after s' hrest hrun
  · cases mid with
    | nil =>
        rw [List.append_nil] at hws
        exact hws s' hrun [] node after s' hrest.symm rfl
    | cons u mid =>
        injection hrest with hu _
        subst hu
        exact hus before node mid s' rfl hrun

/-- Footed trees make a footed list. -/
theorem footed_all {ts : List Tree}
    (hts : ∀ t ∈ ts, ∀ s, t.code.length < 2 ^ 63 → Footed ctx s t.postorder)
    (s : Stack) (h : (Tree.codeAll ts).length < 2 ^ 63) :
    Footed ctx s (Tree.postorderAll ts) := by
  induction ts generalizing s with
  | nil => exact .nil s
  | cons t ts ih =>
      rw [Tree.codeAll, List.length_append] at h
      refine Footed.append (hts t (List.mem_cons_self ..) s (by omega)) ?_
      intro s' _
      exact ih (fun u hu => hts u (List.mem_cons_of_mem t hu)) s' (by omega)

/-- Every node of a tree is reached with the values of its operands on
top. -/
theorem footed (t : Tree) (s : Stack) (h : t.code.length < 2 ^ 63) :
    Footed ctx s t.postorder := by
  induction t using Tree.induct_operands generalizing s with
  | h t ih =>
      rw [Tree.code_eq_operands, List.length_append] at h
      rw [Tree.postorder_eq_operands]
      refine Footed.append (footed_all ih s (by omega)) fun s' hrun => ?_
      rw [← Tree.codeAll_eq_postorderAll, run_codeAll _ s (by omega)] at hrun
      cases hvs : Tree.values ctx t.operands with
      | error fault => rw [hvs] at hrun; cases hrun
      | ok vs =>
          rw [hvs] at hrun
          injection hrun with hs
          have hlen := Tree.length_values hvs
          have hle := Tree.length_le_codeAll t.operands
          exact .single hvs (by omega) hs.symm

-- ============================================================ instructions

/-- A count is on top, put there by the instruction right before, and as
many values are below it. -/
def Counted (before : List Instruction) (stack : Stack) : Prop :=
  ∃ earlier place count mid vs rest,
    before = earlier
      ++ [⟨.constant (.integer (Int64.ofNat count)), place⟩]
    ∧ stack.pop = .ok (.integer (Int64.ofNat count), mid)
    ∧ vs.length = count ∧ mid.popOnto [] count = .ok (vs, rest)
    ∧ stack.popCounted = .ok (vs, rest)

/-- A step finds on the stack what it takes. -/
def Step.Served (before : List Instruction) (stack : Stack) : Step → Prop
  | .constant _ => True
  | .variable _ => True
  | .function _ => Counted before stack
  | .array => Counted before stack
  | .monadic _ _ => ∃ a rest, stack.pop = .ok (a, rest)
  | .dyadic _ _ => ∃ b mid a rest,
      stack.pop = .ok (b, mid) ∧ mid.pop = .ok (a, rest)

/-- Values under their count are counted. -/
theorem counted_of_run {base stack : Stack} {before : List Instruction}
    {vs : List Value} {items : List Tree} {p : Place}
    (hlen : vs.length = items.length) (hlt : vs.length < 2 ^ 63)
    (hrun : run ctx (base.pushAll vs) [Tree.countAt items p] = .ok stack) :
    Counted (before ++ [Tree.countAt items p]) stack := by
  cases hrun
  refine ⟨before, p, vs.length, base.pushAll vs, vs, base, ?_, ?_, rfl, ?_,
    ?_⟩
  · rw [Tree.countAt, hlen]
  · rw [hlen]
    rfl
  · rw [Stack.popOnto_pushAll, List.append_nil]
  · rw [← hlen]
    exact base.popCounted_pushAll hlt

/-- A root with the values of its operands on top has every instruction of
its own served. -/
theorem served_of_own {node : Tree} {base stack : Stack}
    {vs : List Value} {earlier inner outer : List Instruction}
    {i : Instruction} (hvs : Tree.values ctx node.operands = .ok vs)
    (hlt : vs.length < 2 ^ 63) (hown : node.own = inner ++ i :: outer)
    (hrun : run ctx (base.pushAll vs) inner = .ok stack) :
    i.step.Served (earlier ++ inner) stack := by
  have hlen := Tree.length_values hvs
  match node with
  | .constant v p =>
      obtain ⟨rfl, rfl⟩ := single_split hown
      trivial
  | .variable n p =>
      obtain ⟨rfl, rfl⟩ := single_split hown
      trivial
  | .call n args p =>
      rcases pair_split hown with ⟨rfl, rfl⟩ | ⟨rfl, rfl⟩
      · trivial
      · exact counted_of_run hlen hlt hrun
  | .group t => exact absurd hown (by simp [Tree.own])
  | .array items p =>
      rcases pair_split hown with ⟨rfl, rfl⟩ | ⟨rfl, rfl⟩
      · trivial
      · exact counted_of_run hlen hlt hrun
  | .plus t => exact absurd hown (by simp [Tree.own])
  | .monadic op t s p =>
      obtain ⟨rfl, rfl⟩ := single_split hown
      cases hrun
      obtain ⟨a, rfl⟩ := List.length_eq_one_iff.mp hlen
      exact ⟨a, base, rfl⟩
  | .dyadic op l r s p =>
      obtain ⟨rfl, rfl⟩ := single_split hown
      cases hrun
      obtain ⟨a, b, rfl⟩ := List.length_eq_two.mp hlen
      exact ⟨b, base.push a, a, base, rfl, rfl⟩

/-- Every instruction of compiled code that is reached finds what it
takes. -/
theorem served_of_code {t : Tree} (h : t.code.length < 2 ^ 63)
    {before after : List Instruction} {i : Instruction} {stack : Stack}
    (hsplit : t.code = before ++ i :: after)
    (hrun : run ctx .empty before = .ok stack) :
    i.step.Served before stack := by
  have hfooted : Footed ctx .empty t.postorder := footed t .empty h
  rw [Tree.code_eq_postorder] at hsplit
  obtain ⟨us, node, ws, inner, outer, hnodes, hown, rfl⟩ :=
    split_flatMap hsplit
  rw [run_append] at hrun
  cases hus : run ctx .empty (us.flatMap Tree.own) with
  | error fault => rw [hus] at hrun; cases hrun
  | ok s =>
      rw [hus] at hrun
      obtain ⟨base, vs, hvs, hlt, rfl⟩ := hfooted us node ws s hnodes hus
      exact served_of_own hvs hlt hown hrun

/-- Code that does not fail leaves a single value. -/
theorem values_of_run {t : Tree} (h : t.code.length < 2 ^ 63)
    {stack : Stack} (hrun : run ctx .empty t.code = .ok stack) :
    ∃ v, stack.values = [v] := by
  rw [run_code t .empty h] at hrun
  cases hv : t.value ctx with
  | error fault => rw [hv] at hrun; cases hrun
  | ok v =>
      rw [hv] at hrun
      cases hrun
      exact ⟨v, rfl⟩

-- ============================================================= steadiness

/-- The parts of the grammar that compute nothing, and unknown symbols, as
listings name them. -/
def punctuation : List String :=
  ["LeftParen", "RightParen", "LeftBracket", "RightBracket", "Comma", "Is",
    "Null", "Unknown"]

theorem Monadic.name_not_mem_punctuation (op : Monadic) :
    op.name ∉ punctuation := by
  cases op with
  | plain op => cases op <;> decide
  | isNotNull => decide

theorem Dyadic.name_not_mem_punctuation (op : Dyadic) :
    op.name ∉ punctuation := by
  cases op with
  | plain op => cases op <;> decide
  | notIn => decide
  | notLike => decide

/-- Instructions compute. -/
theorem Instruction.name_not_mem_punctuation (i : Instruction) :
    i.name ∉ punctuation := by
  obtain ⟨step, place⟩ := i
  cases step with
  | constant v => exact show "Constant" ∉ punctuation by decide
  | «variable» n => exact show "Variable" ∉ punctuation by decide
  | function n => exact show "Function" ∉ punctuation by decide
  | array => exact show "Array" ∉ punctuation by decide
  | monadic op text => exact op.name_not_mem_punctuation
  | dyadic op text => exact op.name_not_mem_punctuation

/-- Code that works on the stack as it should: every instruction that is
reached finds what it takes, none is punctuation, and the end is reached
with a single value. -/
structure Steady (ctx : Context) (code : List Instruction) : Prop where
  served : ∀ before i after stack, code = before ++ i :: after →
    run ctx .empty before = .ok stack → i.step.Served before stack
  computes : ∀ i ∈ code, i.name ∉ punctuation
  single : ∀ stack, run ctx .empty code = .ok stack →
    ∃ v, stack.values = [v]

/-- The code of trees is steady. -/
theorem steady_code (ctx : Context) {t : Tree}
    (h : t.code.length < 2 ^ 63) : Steady ctx t.code where
  served _ _ _ _ hsplit hrun := served_of_code h hsplit hrun
  computes i _ := i.name_not_mem_punctuation
  single _ hrun := values_of_run h hrun

end Expr

end Formula
