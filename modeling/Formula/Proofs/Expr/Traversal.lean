/-
Trees as their nodes in postorder: operands from left to right, each before
the tree it belongs to. A subtree stands for its root there, and `own` is
what a root adds to the code.

Main statement: the code of a tree is what its nodes add, node by node in
postorder (`code_eq_postorder`).

`depth` is the nesting that readers limit. Signs, groups, calls and `NOT`
are a rung above what is inside them, and an index is a rung above its
base.
-/
import Formula.Expr.Tree

namespace Formula

namespace Expr

-- ============================================================== postorder

namespace Tree

mutual

/-- The subtrees of a tree in the order they are computed. -/
def postorder : Tree → List Tree
  | .constant v p => [.constant v p]
  | .variable n p => [.variable n p]
  | .call n args p => postorderAll args ++ [.call n args p]
  | .group t => postorder t ++ [.group t]
  | .array items p => postorderAll items ++ [.array items p]
  | .plus t => postorder t ++ [.plus t]
  | .monadic op t s p => postorder t ++ [.monadic op t s p]
  | .dyadic op l r s p => postorder l ++ postorder r ++ [.dyadic op l r s p]

/-- The subtrees of several trees, one tree after the other. -/
def postorderAll : List Tree → List Tree
  | [] => []
  | t :: ts => postorder t ++ postorderAll ts

end

/-- What the root of a tree adds to the code. Plus signs and groups add
nothing; calls and arrays add the number of values they take before they
add themselves. -/
def own : Tree → List Instruction
  | .constant v p => [⟨.constant v, p⟩]
  | .variable n p => [⟨.variable n, p⟩]
  | .call n args p => [countAt args p, ⟨.function n, p⟩]
  | .group _ => []
  | .array items p => [countAt items p, ⟨.array, p⟩]
  | .plus _ => []
  | .monadic op _ s p => [⟨.monadic op s, p⟩]
  | .dyadic op _ _ s p => [⟨.dyadic op s, p⟩]

-- ============================================================== operands

/-- The trees that the root of a tree is applied to. -/
def operands : Tree → List Tree
  | .constant _ _ => []
  | .variable _ _ => []
  | .call _ args _ => args
  | .group t => [t]
  | .array items _ => items
  | .plus t => [t]
  | .monadic _ t _ _ => [t]
  | .dyadic _ l r _ _ => [l, r]

/-- The root comes last, after the nodes of its operands. -/
theorem postorder_eq_operands (t : Tree) :
    t.postorder = postorderAll t.operands ++ [t] := by
  cases t <;> simp [postorder, postorderAll, operands]

/-- The code of a root comes last, after the code of its operands. -/
theorem code_eq_operands (t : Tree) :
    t.code = codeAll t.operands ++ t.own := by
  cases t <;> simp [code, codeAll, operands, own]

/-- What holds of a tree once it holds of its operands holds of all
trees. -/
theorem induct_operands {P : Tree → Prop}
    (h : ∀ t, (∀ u ∈ t.operands, P u) → P t) (t : Tree) : P t := by
  induction t using code.induct
    (motive_2 := fun ts => ∀ u ∈ ts, P u) with
  | case1 v p => exact h _ fun u hu => absurd hu List.not_mem_nil
  | case2 n p => exact h _ fun u hu => absurd hu List.not_mem_nil
  | case3 n args p ih => exact h _ ih
  | case4 t ih => exact h _ fun u hu => List.mem_singleton.mp hu ▸ ih
  | case5 items p ih => exact h _ ih
  | case6 t ih => exact h _ fun u hu => List.mem_singleton.mp hu ▸ ih
  | case7 op t s p ih => exact h _ fun u hu => List.mem_singleton.mp hu ▸ ih
  | case8 op l r s p ihl ihr =>
      refine h _ fun u hu => ?_
      rcases List.mem_cons.mp hu with rfl | hu
      · exact ihl
      · exact List.mem_singleton.mp hu ▸ ihr
  | case9 u hu => exact absurd hu List.not_mem_nil
  | case10 t ts iht ihts u hu =>
      rcases List.mem_cons.mp hu with rfl | hu
      · exact iht
      · exact ihts u hu

-- =========================================================== code by node

/-- If the code of each of several trees is what its nodes add, so is the
code of all of them. -/
theorem codeAll_eq_flatMap {ts : List Tree}
    (hts : ∀ t ∈ ts, t.code = t.postorder.flatMap own) :
    codeAll ts = (postorderAll ts).flatMap own := by
  induction ts with
  | nil => rfl
  | cons t ts ih =>
      rw [codeAll, postorderAll, List.flatMap_append,
        hts t (List.mem_cons_self ..),
        ih fun u hu => hts u (List.mem_cons_of_mem t hu)]

/-- The code of a tree is what its nodes add, in postorder. -/
theorem code_eq_postorder (t : Tree) :
    t.code = t.postorder.flatMap own := by
  induction t using induct_operands with
  | h t ih =>
      rw [code_eq_operands, postorder_eq_operands, List.flatMap_append,
        codeAll_eq_flatMap ih, List.flatMap_singleton]

/-- The code of several trees, likewise. -/
theorem codeAll_eq_postorderAll (ts : List Tree) :
    codeAll ts = (postorderAll ts).flatMap own :=
  codeAll_eq_flatMap fun t _ => code_eq_postorder t

end Tree

-- ================================================================= depth

/-- How far an operator is above its operand: a rung for the signs and
`NOT`, none for the operators that stand behind. -/
def Monadic.nests : Monadic → Nat
  | .plain .negative => 1
  | .plain .not => 1
  | .plain .isNull => 0
  | .isNotNull => 0

/-- How far an operator is above its right operand: a rung where that is
an index in brackets. -/
def Dyadic.nests : Dyadic → Nat
  | .plain .element => 1
  | _ => 0

namespace Tree

mutual

/-- How deep a tree is nested. -/
def depth : Tree → Nat
  | .constant _ _ => 1
  | .variable _ _ => 1
  | .call _ args _ => 1 + depthAll args
  | .group t => 1 + depth t
  | .array items _ => 1 + depthAll items
  | .plus t => 1 + depth t
  | .monadic op t _ _ => op.nests + depth t
  | .dyadic op l r _ _ => max (depth l) (op.nests + depth r)

/-- How deep the deepest of several trees is nested. -/
def depthAll : List Tree → Nat
  | [] => 0
  | t :: ts => max (depth t) (depthAll ts)

end

/-- A tree is nested at least as deep as its atoms. -/
theorem depth_pos (t : Tree) : 1 ≤ t.depth := by
  induction t using depth.induct (motive_2 := fun _ => True) with
  | case1 v p => exact Nat.le_refl 1
  | case2 n p => exact Nat.le_refl 1
  | case3 n args p _ => exact Nat.le_add_right 1 _
  | case4 t _ => exact Nat.le_add_right 1 _
  | case5 items p _ => exact Nat.le_add_right 1 _
  | case6 t _ => exact Nat.le_add_right 1 _
  | case7 op t s p ih => exact Nat.le_add_left_of_le ih
  | case8 op l r s p ihl _ => exact Nat.le_trans ihl (Nat.le_max_left _ _)
  | case9 => trivial
  | case10 t ts _ _ => trivial

/-- A bound on several trees is a bound on each. -/
theorem depthAll_le_iff {ts : List Tree} {n : Nat} :
    depthAll ts ≤ n ↔ ∀ t ∈ ts, t.depth ≤ n := by
  induction ts with
  | nil => simp [depthAll]
  | cons t ts ih => rw [depthAll, Nat.max_le, ih, List.forall_mem_cons]

end Tree

end Expr

end Formula
