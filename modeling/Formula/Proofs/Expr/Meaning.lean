/-
What the value of a tree is, said without its recursion. `spelledOut` writes
the operators that stand for the opposite of another one as that one under
`NOT`, which has the same value (`value_spelledOut`). `FailsFirst` looks for
the first node in postorder that fails although its operands have values:
where a tree has no value, its fault comes from there
(`failsFirst_of_value`).
-/
import Formula.Expr.Evaluation
import Formula.Proofs.Expr.Traversal

namespace Formula

-- ============================================================= placements

/-- A fault that was raised at a place: as it was raised where that has a
line already, and with the line and column of the place where not. -/
structure Fault.PlacedAt (fault raised : Fault) (p : Place) : Prop where
  kept : raised.line ≠ none → fault = raised
  placed : raised.line = none →
    fault = { raised with line := some p.line, column := some p.column }

/-- Locating a fault places it. -/
theorem Fault.placedAt_locate (raised : Fault) (p : Place) :
    (raised.locate p).PlacedAt raised p := by
  unfold locate
  cases h : raised.line with
  | none => exact ⟨fun hne => absurd h hne, fun _ => rfl⟩
  | some line => exact ⟨fun _ => rfl, fun hnone => by rw [h] at hnone; cases hnone⟩

namespace Expr

variable {ctx : Context}

@[simp] theorem located_ok {α : Type} (p : Place) (a : α) :
    located p (.ok a) = .ok a := rfl

/-- A fault with a place was raised there. -/
theorem placedAt_of_located {α : Type} {p : Place} {x : Except Fault α}
    {fault : Fault} (h : located p x = .error fault) :
    ∃ raised, x = .error raised ∧ fault.PlacedAt raised p := by
  cases x with
  | ok a => cases h
  | error raised =>
      cases h
      exact ⟨raised, rfl, raised.placedAt_locate p⟩

-- ========================================================= operand values

namespace Tree

/-- Several trees have values where each of them has one. -/
theorem values_cons_ok {t : Tree} {ts : List Tree} {vs : List Value} :
    values ctx (t :: ts) = .ok vs ↔ ∃ v vs', t.value ctx = .ok v
      ∧ values ctx ts = .ok vs' ∧ vs = v :: vs' := by
  rw [values]
  cases ht : t.value ctx with
  | error fault => simp [bind, Except.bind]
  | ok v =>
      cases hts : values ctx ts with
      | error fault => simp [bind, Except.bind]
      | ok vs' => simp [bind, Except.bind, eq_comm]

/-- Several trees fail as the first of them does that fails. -/
theorem values_cons_error {t : Tree} {ts : List Tree} {fault : Fault} :
    values ctx (t :: ts) = .error fault ↔ t.value ctx = .error fault
      ∨ ∃ v, t.value ctx = .ok v ∧ values ctx ts = .error fault := by
  rw [values]
  cases ht : t.value ctx with
  | error fault => simp [bind, Except.bind]
  | ok v =>
      cases hts : values ctx ts with
      | error fault => simp [bind, Except.bind]
      | ok vs' => simp [bind, Except.bind]

/-- One tree among several has the only value. -/
theorem values_single_ok {t : Tree} {vs : List Value}
    (h : values ctx [t] = .ok vs) : ∃ a, t.value ctx = .ok a ∧ vs = [a] := by
  obtain ⟨a, vs', ht, hnil, rfl⟩ := values_cons_ok.mp h
  cases hnil
  exact ⟨a, ht, rfl⟩

/-- Two trees have two values. -/
theorem values_pair_ok {l r : Tree} {vs : List Value}
    (h : values ctx [l, r] = .ok vs) :
    ∃ a b, l.value ctx = .ok a ∧ r.value ctx = .ok b ∧ vs = [a, b] := by
  obtain ⟨a, vs', hl, hr, rfl⟩ := values_cons_ok.mp h
  obtain ⟨b, hb, rfl⟩ := values_single_ok hr
  exact ⟨a, b, hl, hb, rfl⟩

/-- Each tree has a value of its own. -/
theorem length_values {ts : List Tree} {vs : List Value}
    (h : values ctx ts = .ok vs) : vs.length = ts.length := by
  induction ts generalizing vs with
  | nil =>
      cases h
      rfl
  | cons t ts ih =>
      obtain ⟨v, vs', _, hts, rfl⟩ := values_cons_ok.mp h
      rw [List.length_cons, List.length_cons, ih hts]

/-- A tree fails as its operands do. -/
theorem value_of_operands_error {t : Tree} {fault : Fault}
    (h : values ctx t.operands = .error fault) :
    t.value ctx = .error fault := by
  have single {u : Tree} (h : values ctx [u] = .error fault) :
      u.value ctx = .error fault := by
    rcases values_cons_error.mp h with h | ⟨_, _, h⟩
    · exact h
    · cases h
  cases t with
  | constant v p => cases h
  | «variable» n p => cases h
  | call n args p =>
      rw [value, show values ctx args = .error fault from h]
      rfl
  | group t =>
      rw [value]
      exact single h
  | array items p =>
      rw [value, show values ctx items = .error fault from h]
      rfl
  | plus t =>
      rw [value]
      exact single h
  | monadic op t s p =>
      rw [value, single h]
      rfl
  | dyadic op l r s p =>
      rcases values_cons_error.mp h with h | ⟨a, hl, hr⟩
      · rw [value, h]
        rfl
      · rw [value, hl, single hr]
        rfl

/-- The operands of a tree that has a value have values. -/
theorem operands_of_value {t : Tree} {v : Value}
    (h : t.value ctx = .ok v) : ∃ vs, values ctx t.operands = .ok vs := by
  cases hvs : values ctx t.operands with
  | error fault =>
      rw [value_of_operands_error hvs] at h
      cases h
  | ok vs => exact ⟨vs, rfl⟩

end Tree

-- ============================================================== opposites

/-- `IS NOT NULL` as `NOT` over `IS NULL`. -/
def Monadic.spelledOut (t : Tree) (s : String) (p : Place) : Monadic → Tree
  | .plain op => .monadic (.plain op) t s p
  | .isNotNull =>
    .monadic (.plain .not) (.monadic (.plain .isNull) t s p) s p

/-- `NOT IN` and `NOT LIKE` as `NOT` over `IN` and `LIKE`. -/
def Dyadic.spelledOut (l r : Tree) (s : String) (p : Place) : Dyadic → Tree
  | .plain op => .dyadic (.plain op) l r s p
  | .notIn => .monadic (.plain .not) (.dyadic (.plain .isIn) l r s p) s p
  | .notLike => .monadic (.plain .not) (.dyadic (.plain .like) l r s p) s p

/-- The opposite of being null is `NOT` of being null. -/
theorem Monadic.value_spelledOut (op : Monadic) (t : Tree) (s : String)
    (p : Place) :
    (op.spelledOut t s p).value ctx = (Tree.monadic op t s p).value ctx := by
  cases op with
  | plain op => rfl
  | isNotNull =>
      rw [spelledOut, Tree.value, Tree.value, Tree.value]
      cases t.value ctx with
      | error fault => rfl
      | ok a =>
          show (located p (ctx.operations.unary .isNull a)).bind _
            = located p (Except.bind (ctx.operations.unary .isNull a) _)
          cases ctx.operations.unary .isNull a with
          | error fault => rfl
          | ok b => rfl

/-- The opposite of a test on two operands is `NOT` of that test. -/
theorem Dyadic.value_spelledOut (op : Dyadic) (l r : Tree) (s : String)
    (p : Place) :
    (op.spelledOut l r s p).value ctx
      = (Tree.dyadic op l r s p).value ctx := by
  have key (test : Operator) :
      (Tree.monadic (.plain .not) (.dyadic (.plain test) l r s p) s p).value
          ctx
        = (l.value ctx).bind fun a => (r.value ctx).bind fun b =>
            located p ((ctx.operations.binary test a b).bind
              (ctx.operations.unary .not)) := by
    rw [Tree.value, Tree.value]
    cases l.value ctx with
    | error fault => rfl
    | ok a =>
        cases r.value ctx with
        | error fault => rfl
        | ok b =>
            show (located p (ctx.operations.binary test a b)).bind _
              = located p (Except.bind (ctx.operations.binary test a b) _)
            cases ctx.operations.binary test a b with
            | error fault => rfl
            | ok c => rfl
  cases op with
  | plain op => rfl
  | notIn => rw [spelledOut, key, Tree.value]; rfl
  | notLike => rw [spelledOut, key, Tree.value]; rfl

namespace Tree

mutual

/-- A tree in which every opposite is `NOT` of the plain operation. -/
def spelledOut : Tree → Tree
  | .constant v p => .constant v p
  | .variable n p => .variable n p
  | .call n args p => .call n (spelledOutAll args) p
  | .group t => .group (spelledOut t)
  | .array items p => .array (spelledOutAll items) p
  | .plus t => .plus (spelledOut t)
  | .monadic op t s p => op.spelledOut (spelledOut t) s p
  | .dyadic op l r s p => op.spelledOut (spelledOut l) (spelledOut r) s p

/-- Several such trees. -/
def spelledOutAll : List Tree → List Tree
  | [] => []
  | t :: ts => spelledOut t :: spelledOutAll ts

end

mutual

/-- Spelling opposites out has no effect on the value, nor on faults. -/
theorem value_spelledOut (t : Tree) :
    t.spelledOut.value ctx = t.value ctx := by
  match t with
  | .constant v p => rfl
  | .variable n p => rfl
  | .call n args p =>
      rw [spelledOut, value, value, values_spelledOutAll args]
  | .group t => rw [spelledOut, value, value, value_spelledOut t]
  | .array items p =>
      rw [spelledOut, value, value, values_spelledOutAll items]
  | .plus t => rw [spelledOut, value, value, value_spelledOut t]
  | .monadic op t s p =>
      rw [spelledOut, Monadic.value_spelledOut, value, value,
        value_spelledOut t]
  | .dyadic op l r s p =>
      rw [spelledOut, Dyadic.value_spelledOut, value, value,
        value_spelledOut l, value_spelledOut r]

/-- Several trees, likewise. -/
theorem values_spelledOutAll (ts : List Tree) :
    values ctx (spelledOutAll ts) = values ctx ts := by
  match ts with
  | [] => rfl
  | t :: ts =>
      rw [spelledOutAll, values, values, value_spelledOut t,
        values_spelledOutAll ts]

end

end Tree

-- =========================================================== first faults

/-- What goes wrong at a node whose operands have values, and the place of
the node. -/
inductive Raises (ctx : Context) : Tree → Place → Fault → Prop
  | noVariable {n : String} {p : Place} (h : ctx.valueOf? n = none) :
      Raises ctx (.variable n p) p (.of (.variableNotFound n))
  | noFunction {n : String} {args : List Tree} {p : Place}
      {vs : List Value} (hargs : Tree.values ctx args = .ok vs)
      (h : ctx.functionOf? n = none) :
      Raises ctx (.call n args p) p (.of (.functionNotFound n))
  | call {n : String} {args : List Tree} {p : Place} {vs : List Value}
      {f : List Value → Operations → Outcome} {raised : Fault}
      (hargs : Tree.values ctx args = .ok vs)
      (hf : ctx.functionOf? n = some f)
      (h : f vs ctx.operations = .error raised) :
      Raises ctx (.call n args p) p raised
  | monadic {op : Monadic} {t : Tree} {s : String} {p : Place} {a : Value}
      {raised : Fault} (ht : t.value ctx = .ok a)
      (h : op.apply ctx.operations a = .error raised) :
      Raises ctx (.monadic op t s p) p raised
  | dyadic {op : Dyadic} {l r : Tree} {s : String} {p : Place}
      {a b : Value} {raised : Fault} (hl : l.value ctx = .ok a)
      (hr : r.value ctx = .ok b)
      (h : op.apply ctx.operations a b = .error raised) :
      Raises ctx (.dyadic op l r s p) p raised

/-- All nodes have values. -/
def Computed (ctx : Context) (nodes : List Tree) : Prop :=
  ∀ u ∈ nodes, ∃ v, u.value ctx = .ok v

/-- The first of some nodes that has no value raises a fault. -/
def FailsFirst (ctx : Context) (nodes : List Tree) (fault : Fault) : Prop :=
  ∃ before node after p raised, nodes = before ++ node :: after
    ∧ Computed ctx before ∧ Raises ctx node p raised
    ∧ fault.PlacedAt raised p

theorem Computed.nil : Computed ctx [] := fun _ h => absurd h List.not_mem_nil

theorem Computed.append {us vs : List Tree} (hus : Computed ctx us)
    (hvs : Computed ctx vs) : Computed ctx (us ++ vs) := by
  intro u hu
  rcases List.mem_append.mp hu with hu | hu
  · exact hus u hu
  · exact hvs u hu

theorem Computed.single {t : Tree} {v : Value} (h : t.value ctx = .ok v) :
    Computed ctx [t] := by
  intro u hu
  rw [List.mem_singleton.mp hu]
  exact ⟨v, h⟩

/-- A first failure is one whatever comes after. -/
theorem FailsFirst.left {us : List Tree} {fault : Fault}
    (h : FailsFirst ctx us fault) (vs : List Tree) :
    FailsFirst ctx (us ++ vs) fault := by
  obtain ⟨before, node, after, p, raised, rfl, hbefore, hnode, hp⟩ := h
  exact ⟨before, node, after ++ vs, p, raised, by simp, hbefore, hnode, hp⟩

/-- A first failure is one after nodes that have values. -/
theorem FailsFirst.right {us vs : List Tree} {fault : Fault}
    (hus : Computed ctx us) (h : FailsFirst ctx vs fault) :
    FailsFirst ctx (us ++ vs) fault := by
  obtain ⟨before, node, after, p, raised, rfl, hbefore, hnode, hp⟩ := h
  exact ⟨us ++ before, node, after, p, raised, by simp, hus.append hbefore,
    hnode, hp⟩

/-- The last node fails first where all others have values. -/
theorem FailsFirst.last {us : List Tree} {t : Tree} {p : Place}
    {raised fault : Fault} (hus : Computed ctx us)
    (ht : Raises ctx t p raised) (hp : fault.PlacedAt raised p) :
    FailsFirst ctx (us ++ [t]) fault :=
  .right hus ⟨[], t, [], p, raised, rfl, .nil, ht, hp⟩

/-- A tree that fails although its operands have values raises a fault. -/
theorem raises_of_value {t : Tree} {vs : List Value} {fault : Fault}
    (hvs : Tree.values ctx t.operands = .ok vs)
    (h : t.value ctx = .error fault) :
    ∃ p raised, Raises ctx t p raised ∧ fault.PlacedAt raised p := by
  cases t with
  | constant v p => cases h
  | «variable» n p =>
      rw [Tree.value] at h
      obtain ⟨raised, hread, hp⟩ := placedAt_of_located h
      cases hn : ctx.valueOf? n with
      | some v => rw [Context.read, hn] at hread; cases hread
      | none =>
          rw [Context.read, hn] at hread
          cases hread
          exact ⟨p, _, .noVariable hn, hp⟩
  | call n args p =>
      have hargs : Tree.values ctx args = .ok vs := hvs
      rw [Tree.value, hargs] at h
      obtain ⟨raised, hcall, hp⟩ := placedAt_of_located h
      refine ⟨p, raised, ?_, hp⟩
      cases hn : ctx.functionOf? n with
      | none =>
          rw [Context.call, hn] at hcall
          cases hcall
          exact .noFunction hargs hn
      | some f =>
          rw [Context.call, hn] at hcall
          exact .call hargs hn hcall
  | group t =>
      obtain ⟨a, ht, _⟩ := Tree.values_single_ok hvs
      rw [Tree.value, ht] at h
      cases h
  | array items p =>
      have hitems : Tree.values ctx items = .ok vs := hvs
      rw [Tree.value, hitems] at h
      cases h
  | plus t =>
      obtain ⟨a, ht, _⟩ := Tree.values_single_ok hvs
      rw [Tree.value, ht] at h
      cases h
  | monadic op t s p =>
      obtain ⟨a, ht, _⟩ := Tree.values_single_ok hvs
      rw [Tree.value, ht] at h
      obtain ⟨raised, hop, hp⟩ := placedAt_of_located h
      exact ⟨p, raised, .monadic ht hop, hp⟩
  | dyadic op l r s p =>
      obtain ⟨a, b, hl, hr, _⟩ := Tree.values_pair_ok hvs
      rw [Tree.value, hl, hr] at h
      obtain ⟨raised, hop, hp⟩ := placedAt_of_located h
      exact ⟨p, raised, .dyadic hl hr hop, hp⟩

namespace Tree

/-- Where several trees have values, so have their nodes if that is so for
each. -/
theorem computed_of_values {ts : List Tree} {vs : List Value}
    (hts : ∀ t ∈ ts, ∀ v, t.value ctx = .ok v → Computed ctx t.postorder)
    (h : values ctx ts = .ok vs) : Computed ctx (postorderAll ts) := by
  induction ts generalizing vs with
  | nil => exact .nil
  | cons t ts ih =>
      obtain ⟨v, vs', ht, h, _⟩ := values_cons_ok.mp h
      exact (hts t (List.mem_cons_self ..) v ht).append
        (ih (fun u hu => hts u (List.mem_cons_of_mem t hu)) h)

/-- Where a tree has a value, so have its nodes. -/
theorem computed_of_value (t : Tree) (v : Value)
    (h : t.value ctx = .ok v) : Computed ctx t.postorder := by
  induction t using induct_operands generalizing v with
  | h t ih =>
      obtain ⟨vs, hvs⟩ := operands_of_value h
      rw [postorder_eq_operands]
      exact (computed_of_values ih hvs).append (.single h)

/-- Several trees fail at the first node that fails if that is so for
each. -/
theorem failsFirst_of_values {ts : List Tree} {fault : Fault}
    (hts : ∀ t ∈ ts, t.value ctx = .error fault →
      FailsFirst ctx t.postorder fault)
    (h : values ctx ts = .error fault) :
    FailsFirst ctx (postorderAll ts) fault := by
  induction ts with
  | nil => cases h
  | cons t ts ih =>
      rw [postorderAll]
      rcases values_cons_error.mp h with ht | ⟨v, ht, h⟩
      · exact (hts t (List.mem_cons_self ..) ht).left _
      · exact .right (computed_of_value t v ht)
          (ih (fun u hu => hts u (List.mem_cons_of_mem t hu)) h)

/-- Where a tree has no value, the fault is that of the first node in
postorder that has none. -/
theorem failsFirst_of_value (t : Tree) {fault : Fault}
    (h : t.value ctx = .error fault) : FailsFirst ctx t.postorder fault := by
  induction t using induct_operands with
  | h t ih =>
      rw [postorder_eq_operands]
      cases hvs : values ctx t.operands with
      | error fault' =>
          -- the operands fail, and the tree as they do
          rw [value_of_operands_error hvs] at h
          cases h
          exact (failsFirst_of_values ih hvs).left _
      | ok vs =>
          obtain ⟨p, raised, hraises, hp⟩ := raises_of_value hvs h
          have hcomputed : Computed ctx (postorderAll t.operands) :=
            computed_of_values (fun u _ => computed_of_value u) hvs
          exact .last hcomputed hraises hp

end Tree

end Expr

end Formula
