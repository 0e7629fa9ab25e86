/-
Running compiled code does what the tree means. Wherever the code of a tree
stands, running it pushes the value of the tree on the stack it finds, or
fails as the tree does (`run_code`). A root finds the values of its operands
on top of the stack, the last one above the others, and takes them
(`run_own`); the rest is induction on operands.

The counts in code are 64-bit integers. Statements about whole trees
therefore ask that the code has fewer than `2 ^ 63` instructions, more than
which no memory can list.

Main statement: compiled code evaluates to the value of the tree, and where
that is a fault, to the fault of the first node that fails
(`evaluate_code`).
-/
import Mathlib.Algebra.Group.Nat.Defs
import Formula.Proofs.Expr.Meaning

namespace Formula

-- ============================================================== the stack

namespace Stack

/-- Several values pushed one after the other. -/
def pushAll (s : Stack) (vs : List Value) : Stack :=
  ⟨vs.reverse ++ s.values⟩

@[simp] theorem pop_push (s : Stack) (v : Value) :
    (s.push v).pop = .ok (v, s) := rfl

theorem pushAll_cons (s : Stack) (v : Value) (vs : List Value) :
    s.pushAll (v :: vs) = (s.push v).pushAll vs := by
  unfold pushAll push
  rw [List.reverse_cons, List.append_assoc]
  rfl

theorem pushAll_snoc (s : Stack) (v : Value) (vs : List Value) :
    s.pushAll (vs ++ [v]) = (s.pushAll vs).push v := by
  unfold pushAll push
  rw [List.reverse_append]
  rfl

/-- As many values as were pushed are taken in the order they were
pushed. -/
theorem popOnto_pushAll (s : Stack) (vs above : List Value) :
    (s.pushAll vs).popOnto above vs.length = .ok (vs ++ above, s) := by
  suffices key : ∀ (rs above : List Value),
      (s.pushAll rs.reverse).popOnto above rs.length
        = .ok (rs.reverse ++ above, s) by
    have := key vs.reverse above
    simpa using this
  intro rs
  induction rs with
  | nil => intro above; rfl
  | cons r rs ih =>
      intro above
      rw [List.reverse_cons, pushAll_snoc, List.length_cons, popOnto,
        pop_push]
      simp only
      rw [ih, List.append_assoc]
      rfl

/-- The value that stands for a count. -/
def countValue (n : Nat) : Value := .integer (Int64.ofNat n)

/-- Counts below `2 ^ 63` stand for themselves. -/
theorem countOf?_countValue {n : Nat} (h : n < 2 ^ 63) :
    countOf? (countValue n) = some n := by
  have hint : (Int64.ofNat n).toInt = n := Int64.toInt_ofNat_of_lt h
  show (if 0 ≤ (Int64.ofNat n).toInt then some (Int64.ofNat n).toInt.toNat
    else none) = some n
  rw [hint, if_pos (Int.natCast_nonneg n), Int.toNat_natCast]

/-- The values under their count are taken in the order they were
pushed. -/
theorem popCounted_pushAll (s : Stack) {vs : List Value}
    (h : vs.length < 2 ^ 63) :
    ((s.pushAll vs).push (countValue vs.length)).popCounted
      = .ok (vs, s) := by
  rw [popCounted, pop_push]
  simp only [countOf?_countValue h]
  rw [popOnto_pushAll, List.append_nil]

end Stack

namespace Expr

open Stack (countValue)

variable {ctx : Context}

-- ==================================================================== runs

/-- What is made of a result has no part in where a fault is placed. -/
theorem located_map {α β : Type} (p : Place) (f : α → β)
    (x : Except Fault α) : located p (x.map f) = (located p x).map f := by
  cases x with
  | error fault => rfl
  | ok a => rfl

/-- Code runs one part after the other. -/
theorem run_append (s : Stack) (c d : List Instruction) :
    run ctx s (c ++ d) = (run ctx s c).bind fun s' => run ctx s' d := by
  induction c generalizing s with
  | nil => rfl
  | cons i c ih =>
      rw [List.cons_append, run, run]
      cases h : located i.place (i.step.run ctx s) with
      | error fault => rfl
      | ok s' => exact ih s'

/-- A single instruction is its step, with a place for the fault. -/
theorem run_singleton (s : Stack) (i : Instruction) :
    run ctx s [i] = located i.place (i.step.run ctx s) := by
  rw [run]
  cases h : located i.place (i.step.run ctx s) with
  | error fault => rfl
  | ok s' => rfl

/-- The value that code leaves, where it pushes a single one. -/
theorem evaluate_of_run {code : List Instruction} {x : Outcome}
    (h : run ctx .empty code = x.map Stack.empty.push) :
    evaluate ctx code = x := by
  rw [evaluate, h]
  cases x with
  | error fault => rfl
  | ok v => rfl

-- =================================================================== steps

theorem run_variable (s : Stack) (n : String) (p : Place) :
    run ctx s [⟨.variable n, p⟩] = (located p (ctx.read n)).map s.push := by
  rw [run_singleton, ← located_map]
  cases h : ctx.read n with
  | error fault => simp [Step.run, h, bind, Except.bind, Except.map]
  | ok v => simp [Step.run, h, bind, Except.bind, Except.map]

theorem run_monadic (s : Stack) (a : Value) (op : Monadic) (t : String)
    (p : Place) :
    run ctx (s.push a) [⟨.monadic op t, p⟩]
      = (located p (op.apply ctx.operations a)).map s.push := by
  rw [run_singleton, ← located_map]
  cases h : op.apply ctx.operations a with
  | error fault => simp [Step.run, h, bind, Except.bind, Except.map]
  | ok v => simp [Step.run, h, bind, Except.bind, Except.map]

theorem run_dyadic (s : Stack) (a b : Value) (op : Dyadic) (t : String)
    (p : Place) :
    run ctx ((s.push a).push b) [⟨.dyadic op t, p⟩]
      = (located p (op.apply ctx.operations a b)).map s.push := by
  rw [run_singleton, ← located_map]
  cases h : op.apply ctx.operations a b with
  | error fault => simp [Step.run, h, bind, Except.bind, Except.map]
  | ok v => simp [Step.run, h, bind, Except.bind, Except.map]

/-- A function takes the arguments under their count. -/
theorem run_function (s : Stack) {vs : List Value} (h : vs.length < 2 ^ 63)
    (n : String) (p : Place) :
    run ctx ((s.pushAll vs).push (countValue vs.length)) [⟨.function n, p⟩]
      = (located p (ctx.call n vs)).map s.push := by
  rw [run_singleton, ← located_map]
  have hpop := s.popCounted_pushAll h
  cases hcall : ctx.call n vs with
  | error fault =>
      simp [Step.run, hpop, hcall, bind, Except.bind, Except.map]
  | ok v => simp [Step.run, hpop, hcall, bind, Except.bind, Except.map]

/-- An array takes the items under their count. -/
theorem run_array (s : Stack) {vs : List Value} (h : vs.length < 2 ^ 63)
    (p : Place) :
    run ctx ((s.pushAll vs).push (countValue vs.length)) [⟨.array, p⟩]
      = .ok (s.push (.array vs)) := by
  rw [run_singleton]
  have hpop := s.popCounted_pushAll h
  simp [Step.run, hpop, bind, Except.bind]

-- ============================================================== simulation

namespace Tree

/-- Every tree has code. -/
theorem code_length_pos (t : Tree) : 1 ≤ t.code.length := by
  induction t using code.induct (motive_2 := fun _ => True) with
  | case1 v p => simp [code]
  | case2 n p => simp [code]
  | case3 n args p _ => simp [code]
  | case4 t ih => simpa [code] using ih
  | case5 items p _ => simp [code]
  | case6 t ih => simpa [code] using ih
  | case7 op t s p _ => simp [code]
  | case8 op l r s p _ _ =>
      rw [code, List.length_append]
      exact Nat.le_add_left _ _
  | case9 => trivial
  | case10 t ts _ _ => trivial

/-- Several trees have at least as many instructions. -/
theorem length_le_codeAll (ts : List Tree) :
    ts.length ≤ (codeAll ts).length := by
  induction ts with
  | nil => exact Nat.le_refl _
  | cons t ts ih =>
      have := t.code_length_pos
      rw [codeAll, List.length_append, List.length_cons]
      omega

end Tree

/-- Where the values of its operands are on the stack, the root of a tree
takes them and pushes the value of the tree, or fails as the tree does. -/
theorem run_own {t : Tree} {vs : List Value} (s : Stack)
    (hvs : Tree.values ctx t.operands = .ok vs) (h : vs.length < 2 ^ 63) :
    run ctx (s.pushAll vs) t.own = (t.value ctx).map s.push := by
  have hlen := Tree.length_values hvs
  cases t with
  | constant v p =>
      cases hvs
      rfl
  | «variable» n p =>
      cases hvs
      exact run_variable s n p
  | call n args p =>
      have hargs : Tree.values ctx args = .ok vs := hvs
      rw [Tree.value, hargs]
      show run ctx (s.pushAll vs)
        ([Tree.countAt args p] ++ [⟨.function n, p⟩]) = _
      rw [Tree.countAt, ← show vs.length = args.length from hlen]
      exact run_function s h n p
  | group t =>
      obtain ⟨a, ht, rfl⟩ := Tree.values_single_ok hvs
      rw [Tree.value, ht]
      rfl
  | array items p =>
      have hitems : Tree.values ctx items = .ok vs := hvs
      rw [Tree.value, hitems]
      show run ctx (s.pushAll vs)
        ([Tree.countAt items p] ++ [⟨.array, p⟩]) = _
      rw [Tree.countAt, ← show vs.length = items.length from hlen]
      exact run_array s h p
  | plus t =>
      obtain ⟨a, ht, rfl⟩ := Tree.values_single_ok hvs
      rw [Tree.value, ht]
      rfl
  | monadic op t txt p =>
      obtain ⟨a, ht, rfl⟩ := Tree.values_single_ok hvs
      rw [Tree.value, ht]
      exact run_monadic s a op txt p
  | dyadic op l r txt p =>
      obtain ⟨a, b, hl, hr, rfl⟩ := Tree.values_pair_ok hvs
      rw [Tree.value, hl, hr]
      exact run_dyadic s a b op txt p

/-- What runs as one tree does runs as several trees do, one after the
other: the code of several trees pushes their values in order, or fails as
the first of them does that fails. -/
theorem run_codeAll_of {ts : List Tree}
    (hts : ∀ t ∈ ts, ∀ s, t.code.length < 2 ^ 63 →
      run ctx s t.code = (t.value ctx).map s.push)
    (s : Stack) (h : (Tree.codeAll ts).length < 2 ^ 63) :
    run ctx s (Tree.codeAll ts) = (Tree.values ctx ts).map s.pushAll := by
  induction ts generalizing s with
  | nil => rfl
  | cons t ts ih =>
      rw [Tree.codeAll, List.length_append] at h
      rw [Tree.codeAll, run_append,
        hts t (List.mem_cons_self ..) s (by omega), Tree.values]
      cases ht : t.value ctx with
      | error fault => rfl
      | ok v =>
          show run ctx (s.push v) (Tree.codeAll ts) = _
          rw [ih (fun u hu => hts u (List.mem_cons_of_mem t hu)) (s.push v)
            (by omega)]
          cases hvs : Tree.values ctx ts with
          | error fault => rfl
          | ok vs =>
              show Except.ok ((s.push v).pushAll vs)
                = Except.ok (s.pushAll (v :: vs))
              rw [Stack.pushAll_cons]

/-- Running the code of a tree pushes its value, or fails as the tree
does. -/
theorem run_code (t : Tree) (s : Stack) (h : t.code.length < 2 ^ 63) :
    run ctx s t.code = (t.value ctx).map s.push := by
  induction t using Tree.induct_operands generalizing s with
  | h t ih =>
      rw [Tree.code_eq_operands, List.length_append] at h
      rw [Tree.code_eq_operands, run_append,
        run_codeAll_of ih s (by omega)]
      cases hvs : Tree.values ctx t.operands with
      | error fault =>
          rw [Tree.value_of_operands_error hvs]
          rfl
      | ok vs =>
          have hlen := Tree.length_values hvs
          have hle := Tree.length_le_codeAll t.operands
          exact run_own s hvs (by omega)

/-- Running the code of several trees pushes their values in order, or
fails as the first of them does that fails. -/
theorem run_codeAll (ts : List Tree) (s : Stack)
    (h : (Tree.codeAll ts).length < 2 ^ 63) :
    run ctx s (Tree.codeAll ts) = (Tree.values ctx ts).map s.pushAll :=
  run_codeAll_of (fun t _ s => run_code t s) s h

-- ============================================================== evaluation

/-- Evaluating the code of a tree gives the value of the tree, in which
opposites are `NOT` of the plain operation; a fault is that of the first
node in postorder that has no value, and has the place of that node unless
it was raised with a line. -/
theorem evaluate_code (ctx : Context) (t : Tree)
    (h : t.code.length < 2 ^ 63) :
    evaluate ctx t.code = t.value ctx
      ∧ t.value ctx = t.spelledOut.value ctx
      ∧ ∀ fault, evaluate ctx t.code = .error fault →
          FailsFirst ctx t.postorder fault := by
  have heval : evaluate ctx t.code = t.value ctx :=
    evaluate_of_run (run_code t .empty h)
  refine ⟨heval, t.value_spelledOut.symm, fun fault hfault => ?_⟩
  rw [heval] at hfault
  exact t.failsFirst_of_value hfault

/-- In `x NOT IN (1, f(x))` without a function `f`, the call fails. -/
theorem evaluate_code_noFunction :
    let ctx : Context := ⟨fun _ => some .null, fun _ => none,
      Coercion.strict.operations⟩
    let t : Tree := .dyadic .notIn (.variable "x" ⟨1, 1⟩)
      (.array [.constant (.integer 1) ⟨1, 11⟩,
        .call "f" [.variable "x" ⟨1, 16⟩] ⟨1, 14⟩] ⟨1, 10⟩) "NOT IN" ⟨1, 3⟩
    t.code.length < 2 ^ 63
      ∧ evaluate ctx t.code
          = .error (.atPlace (.functionNotFound "f") ⟨1, 14⟩) := by
  intro ctx t
  have hlength : t.code.length < 2 ^ 63 := by decide
  exact ⟨hlength, (evaluate_code ctx t hlength).1.trans rfl⟩

end Expr

end Formula
