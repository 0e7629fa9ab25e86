/-
The variables an evaluation reads. Each step looks up the variable it reads, if
any, and no other one. So a run is the same with all variables that have the
same values where it reads them (`run_congr`).

A run that fails does so at a single step (`run_eq_error`). If all variables it
reads have values, a step that fails because a variable is not found calls a
function that fails so (`Calls`), or applies an operator that does.

A calculator lists the variables that its expression reads. The list is
complete: those variables determine the value (`evaluateIn_agrees`), and where
they were created none is missing (`createVariables_complete`).
-/
import Formula.Proofs.Expr.History
import Formula.Proofs.Expr.Scope
import Formula.Proofs.Requests

namespace Formula

namespace Stack

variable {code : Code} (h : code ≠ .internal)

include h

theorem pop_avoids (s : Stack) : Avoids code s.pop := by
  unfold pop
  split
  · exact .error h.symm
  · exact .ok _

theorem popOnto_avoids (s : Stack) (above : List Value) (n : Nat) :
    Avoids code (s.popOnto above n) := by
  induction n generalizing s above with
  | zero => exact .ok _
  | succ n ih =>
      rw [popOnto]
      cases hpop : s.pop with
      | error fault => exact .error (s.pop_avoids h fault hpop)
      | ok popped => exact ih popped.2 _

theorem popCounted_avoids (s : Stack) : Avoids code s.popCounted := by
  unfold popCounted
  cases hpop : s.pop with
  | error fault => exact .error (s.pop_avoids h fault hpop)
  | ok popped =>
      dsimp only
      split
      · exact .error h.symm
      · exact popped.2.popOnto_avoids h [] _

end Stack

namespace Expr

-- ============================================================ equal readings

section

variable {v w : String → Option Value}
  {functionOf? : String → Option (List Value → Operations → Outcome)} {ops : Operations}

/-- A step does the same with all variables that have the same value where it
reads one. -/
theorem Step.run_congr {i : Instruction} (h : ∀ n ∈ i.reads?, v n = w n) (stack : Stack) :
    i.step.run ⟨v, functionOf?, ops⟩ stack = i.step.run ⟨w, functionOf?, ops⟩ stack := by
  obtain ⟨step, place⟩ := i
  cases step with
  | «variable» name =>
      have hname : v name = w name := h name rfl
      simp only [Step.run, Context.read, hname]
  | constant c => rfl
  | function name => rfl
  | array => rfl
  | monadic op text => rfl
  | dyadic op text => rfl

/-- So does a run, step by step. -/
theorem run_congr {code : List Instruction} (h : ∀ i ∈ code, ∀ n ∈ i.reads?, v n = w n)
    (stack : Stack) :
    run ⟨v, functionOf?, ops⟩ stack code = run ⟨w, functionOf?, ops⟩ stack code := by
  induction code generalizing stack with
  | nil => rfl
  | cons i code ih =>
      rw [run, run, Step.run_congr (h i (List.mem_cons_self ..))]
      cases located i.place (i.step.run ⟨w, functionOf?, ops⟩ stack) with
      | error fault => rfl
      | ok next => exact ih (fun j hj => h j (List.mem_cons_of_mem i hj)) next

theorem evaluate_congr {code : List Instruction} (h : ∀ i ∈ code, ∀ n ∈ i.reads?, v n = w n) :
    evaluate ⟨v, functionOf?, ops⟩ code = evaluate ⟨w, functionOf?, ops⟩ code := by
  unfold evaluate
  rw [run_congr h]

end

-- ======================================================= missing variables

variable {ctx : Context} {code : List Instruction}

/-- A run that fails does so at one of its steps, which has the cause. -/
theorem run_eq_error {s : Stack} {fault : Fault} (h : run ctx s code = .error fault) :
    ∃ before i after s' raised, code = before ++ i :: after ∧ run ctx s before = .ok s'
      ∧ i.step.run ctx s' = .error raised ∧ fault.cause = raised.cause := by
  induction code generalizing s with
  | nil => cases h
  | cons i code ih =>
      rw [run] at h
      cases hstep : located i.place (i.step.run ctx s) with
      | error found =>
          rw [hstep] at h
          cases h
          obtain ⟨raised, hraised, hplaced⟩ := placedAt_of_located hstep
          exact ⟨[], i, code, s, raised, rfl, rfl, hraised, cause_of_placedAt hplaced⟩
      | ok next =>
          rw [hstep] at h
          obtain ⟨before, j, after, s', raised, rfl, hrun, hraised, hcause⟩ := ih h
          exact ⟨i :: before, j, after, s', raised, rfl, by rw [run, hstep]; exact hrun, hraised,
            hcause⟩

/-- What it is for instructions to come to call a function with some arguments:
they get to the call, and leave the arguments for it. -/
def Calls (ctx : Context) (code : List Instruction) (f : List Value → Operations → Outcome)
    (args : List Value) : Prop :=
  ∃ before name place after stack rest,
    code = before ++ ⟨.function name, place⟩ :: after
      ∧ run ctx .empty before = .ok stack
      ∧ stack.popCounted = .ok (args, rest)
      ∧ ctx.functionOf? name = some f

/-- A step misses no variable if the one it reads is there, unless the function
it calls or the operator it applies does. -/
theorem Step.run_avoids {i : Instruction} {stack : Stack}
    (hread : ∀ n ∈ i.reads?, (ctx.valueOf? n).isSome = true)
    (hops : ctx.operations.Avoids .varNotFound)
    (hcall : ∀ name f args rest, i.step = .function name →
      stack.popCounted = .ok (args, rest) → ctx.functionOf? name = some f →
      Avoids .varNotFound (f args ctx.operations)) :
    Avoids .varNotFound (i.step.run ctx stack) := by
  have hinternal : Code.varNotFound ≠ .internal := by decide
  obtain ⟨step, place⟩ := i
  cases step with
  | constant c => exact .ok _
  | «variable» name =>
      obtain ⟨value, hvalue⟩ := Option.isSome_iff_exists.1 (hread name rfl)
      simp only [Step.run, Context.read, hvalue]
      exact .ok _
  | function name =>
      show Avoids .varNotFound (stack.popCounted >>= fun popped =>
        ctx.call name popped.1 >>= fun v => .ok (popped.2.push v))
      cases hpop : stack.popCounted with
      | error fault => exact .error (stack.popCounted_avoids hinternal fault hpop)
      | ok popped =>
          have hresult : Avoids .varNotFound (ctx.call name popped.1) := by
            unfold Context.call
            cases hfunction : ctx.functionOf? name with
            | none => exact .error (show Code.funcNotFound ≠ .varNotFound by decide)
            | some f => exact hcall name f popped.1 popped.2 rfl hpop hfunction
          exact hresult.bind fun v => .ok _
  | array => exact (stack.popCounted_avoids hinternal).bind fun popped => .ok _
  | monadic op text =>
      exact (stack.pop_avoids hinternal).bind fun a =>
        (op.apply_avoids hops a.1).bind fun v => .ok _
  | dyadic op text =>
      exact (stack.pop_avoids hinternal).bind fun b => (b.2.pop_avoids hinternal).bind fun a =>
        (op.apply_avoids hops a.1 b.1).bind fun v => .ok _

/-- An evaluation misses no variable if all that it reads are there, unless a
function that it comes to call or an operator does. -/
theorem evaluate_avoids
    (hread : ∀ i ∈ code, ∀ n ∈ i.reads?, (ctx.valueOf? n).isSome = true)
    (hops : ctx.operations.Avoids .varNotFound)
    (hcall : ∀ f args, Calls ctx code f args → Avoids .varNotFound (f args ctx.operations)) :
    Avoids .varNotFound (evaluate ctx code) := by
  unfold evaluate
  cases hrun : run ctx .empty code with
  | ok stack =>
      dsimp only
      split
      · exact .ok _
      · exact .error (show Code.internal ≠ .varNotFound by decide)
  | error fault =>
      obtain ⟨before, i, after, stack, raised, rfl, hbefore, hraised, hcause⟩ := run_eq_error hrun
      have hmem : i ∈ before ++ i :: after := List.mem_append_right before (List.mem_cons_self ..)
      have hstep : Avoids .varNotFound (i.step.run ctx stack) := by
        refine Step.run_avoids (hread i hmem) hops ?_
        intro name f args rest hi hpop hfunction
        exact hcall f args ⟨before, name, i.place, after, stack, rest, by rw [← hi], hbefore, hpop,
          hfunction⟩
      exact .error (by rw [hcause]; exact hstep raised hraised)

-- ============================================================ listed names

/-- What is kept of an attempt to compile lists the variables that its
instructions read. -/
theorem Compiled.names_kept (input : Input) :
    (kept (ofInput input)).2.names = variableNames (kept (ofInput input)).2.code := by
  cases hinput : ofInput input with
  | error fault => rfl
  | ok compiled =>
      have hsource : ∃ source tokens, ofSource source tokens = .ok compiled := by
        cases input with
        | text text => exact ⟨text, exists_ofSource hinput⟩
        | tokens tokens => exact ⟨_, tokens, hinput⟩
      obtain ⟨source, tokens, hsource⟩ := hsource
      obtain ⟨ss, t, -, -, rfl⟩ := ofSource_eq_ok_iff.1 hsource
      rfl

/-- A name that instructions read is the same as one that is listed. -/
theorem any_variableNames {i : Instruction} (hi : i ∈ code) {n : String} (hn : n ∈ i.reads?) :
    (variableNames code).any (sameName n) = true := by
  unfold variableNames
  rw [Names.any_distinct]
  exact List.any_eq_true.2 ⟨n, List.mem_filterMap.2 ⟨i, hi, hn⟩, sameName_refl n⟩

end Expr

namespace Calculator

open Formula.Expr

section

variable (c : Calculator) (input : Input)

theorem compiled_setInput : (c.setInput input).2.compiled
    = (Compiled.kept (Compiled.ofInput input)).2 := by
  rw [setInput_eq]
  rfl

theorem names_setInput : (c.setInput input).2.compiled.names
    = variableNames (c.setInput input).2.compiled.code := by
  rw [compiled_setInput]
  exact Compiled.names_kept input

/-- Tokens are compiled to the instructions of the tree that they spell. -/
theorem code_setInput {tokens : List Token} {ss : List Symbol} {t : Tree}
    (hss : symbols tokens = .ok ss) (ht : tree ss = .ok t) :
    (c.setInput (.tokens tokens)).2.compiled.code = t.code := by
  have hsource : Compiled.ofTokens tokens = .ok _ :=
    Compiled.ofSource_eq_ok_iff.2 ⟨ss, t, hss, ht, rfl⟩
  rw [compiled_setInput, Compiled.ofInput, hsource]
  rfl

theorem scope_setInput : (c.setInput input).2.scope
    = if c.autoVariables then (c.setInput input).2.createVariables c.scope else c.scope := by
  rw [setInput_eq]
  rfl

/-- Evaluation reads the variables that are listed and no others: in two scopes
in which the same values are found by these names, whatever else is in them and
in which order, it gives the same value or fails in the same way. -/
theorem evaluateIn_agrees {s t : Scope}
    (h : ∀ n ∈ (c.setInput input).2.compiled.names, s.value? n = t.value? n)
    (functionOf? : String → Option (List Value → Operations → Outcome)) :
    (c.setInput input).2.evaluateIn s.value? functionOf?
      = (c.setInput input).2.evaluateIn t.value? functionOf? := by
  refine evaluate_congr fun i hi n hn => ?_
  have hlisted := any_variableNames hi hn
  rw [← names_setInput] at hlisted
  obtain ⟨m, hm, hsame⟩ := List.any_eq_true.1 hlisted
  rw [s.value?_congr hsame, t.value?_congr hsame]
  exact h m hm

/-- `x + X`, where `x` is two. In one of the scopes a variable of another name
comes first; in the other one, a variable that is hidden comes last. -/
theorem evaluateIn_agrees_sum :
    let tokens : List Token := [⟨.word, "x", ⟨1, 1⟩⟩, ⟨.symbol, "+", ⟨1, 3⟩⟩, ⟨.word, "X", ⟨1, 5⟩⟩]
    let holder := (new.setInput (.tokens tokens)).2
    let s := (Scope.empty.add "y" (.integer 1)).add "x" (.integer 2)
    let t := (Scope.empty.add "X" (.integer 2)).add "x" (.integer 3)
    holder.compiled.names = ["x"]
      ∧ holder.evaluateIn s.value? Library.standard.function?
        = holder.evaluateIn t.value? Library.standard.function? := by
  intro tokens holder s t
  let ss : List Symbol := [⟨.variable, .string "x", ⟨1, 1⟩⟩, ⟨.plus, .string "+", ⟨1, 3⟩⟩,
    ⟨.variable, .string "X", ⟨1, 5⟩⟩]
  let sum : Tree := .dyadic (.plain .add) (.variable "x" ⟨1, 1⟩) (.variable "X" ⟨1, 5⟩) "+" ⟨1, 3⟩
  have hss : symbols tokens = .ok ss := rfl
  have hsum : tree ss = .ok sum := by cbv
  have hnames : holder.compiled.names = ["x"] := by
    rw [show holder.compiled.names = _ from names_setInput new _, new.code_setInput hss hsum]
    decide
  refine ⟨hnames, new.evaluateIn_agrees (.tokens tokens) (fun n hn => ?_) _⟩
  have hx : n = "x" := List.mem_singleton.1 (hnames ▸ hn)
  rw [hx]
  rfl

/-- What an expression reads is found where its variables were created. -/
theorem isSome_value?_createVariables (scope : Scope) {i : Instruction}
    (hi : i ∈ (c.setInput input).2.compiled.code) {n : String} (hn : n ∈ i.reads?) :
    (((c.setInput input).2.createVariables scope).value? n).isSome = true := by
  unfold createVariables Scope.value?
  rw [Option.isSome_map, Scope.isSome_find?_addMissing, names_setInput, any_variableNames hi hn,
    Bool.or_true]

/-- The variables that are listed are those that the instructions read, each
once, and creating them is safe. The variables of a scope stay as they are, and
those that it lacks come behind them, holding null; creating them again changes
nothing. A calculator that creates variables by itself does the same with its
own scope. With the variables created, evaluation misses none, unless a function
that is called reports that itself: the operations do not. -/
theorem createVariables_complete (p : Parser) :
    let holder := (c.setInput input).2
    holder.compiled = (p.parse input).2.toCompiled
      ∧ holder.compiled.names = Names.distinct (holder.compiled.code.filterMap Instruction.reads?)
      ∧ holder.scope = (if c.autoVariables then holder.createVariables c.scope else c.scope)
      ∧ (∀ scope : Scope,
        let created := holder.createVariables scope
        created.entries = scope.entries
            ++ (holder.compiled.names.filter fun n => (scope.find? n).isNone).map (⟨·, .null⟩)
          ∧ holder.createVariables created = created
          ∧ ∀ functionOf?, holder.operations.Avoids .varNotFound →
            (∀ f args, Calls ⟨created.value?, functionOf?, holder.operations⟩ holder.compiled.code
              f args → Avoids .varNotFound (f args holder.operations)) →
            Avoids .varNotFound (holder.evaluateIn created.value? functionOf?))
      ∧ Coercion.strict.operations.Avoids .varNotFound
      ∧ Coercion.lenient.operations.Avoids .varNotFound := by
  intro holder
  have hconversion : Code.varNotFound ≠ .badConversion := by decide
  refine ⟨(c.setInput_parse p input).2, c.names_setInput input, c.scope_setInput input,
    fun scope => ⟨?_, ?_, ?_⟩, ?_, ?_⟩
  · refine scope.entries_addMissing ?_
    rw [show holder.compiled.names = _ from c.names_setInput input]
    exact Names.pairwise_distinct _
  · exact scope.addMissing_addMissing holder.compiled.names
  · intro functionOf? hops hcall
    refine evaluate_avoids (fun i hi n hn => ?_) hops hcall
    exact c.isSome_value?_createVariables input scope hi hn
  · exact (Coercion.strict_avoids hconversion).operations (by decide) (by decide)
  · exact (Coercion.lenient_avoids hconversion).operations (by decide) (by decide)

end

/-- `f(a) + A`, in a scope that has a variable of another name. -/
theorem createVariables_complete_call :
    let tokens : List Token := [⟨.word, "f", ⟨1, 1⟩⟩, ⟨.symbol, "(", ⟨1, 2⟩⟩, ⟨.word, "a", ⟨1, 3⟩⟩,
      ⟨.symbol, ")", ⟨1, 4⟩⟩, ⟨.symbol, "+", ⟨1, 6⟩⟩, ⟨.word, "A", ⟨1, 8⟩⟩]
    let holder := (new.setInput (.tokens tokens)).2
    let created := holder.createVariables (Scope.empty.add "b" (.integer 1))
    holder.compiled.names = ["a"]
      ∧ created.entries = [⟨"b", .integer 1⟩, ⟨"a", .null⟩]
      ∧ holder.createVariables created = created
      ∧ Avoids .varNotFound
        (holder.evaluateIn created.value? fun _ => some fun args _ => .ok (.array args)) := by
  intro tokens holder created
  let ss : List Symbol := [⟨.variable, .string "f", ⟨1, 1⟩⟩, ⟨.leftParen, .string "(", ⟨1, 2⟩⟩,
    ⟨.variable, .string "a", ⟨1, 3⟩⟩, ⟨.rightParen, .string ")", ⟨1, 4⟩⟩,
    ⟨.plus, .string "+", ⟨1, 6⟩⟩, ⟨.variable, .string "A", ⟨1, 8⟩⟩]
  let t : Tree := .dyadic (.plain .add) (.call "f" [.variable "a" ⟨1, 3⟩] ⟨1, 1⟩)
    (.variable "A" ⟨1, 8⟩) "+" ⟨1, 6⟩
  have hss : symbols tokens = .ok ss := rfl
  have ht : tree ss = .ok t := by cbv
  obtain ⟨-, hnames, -, hcreate, -, hlenient⟩ :=
    new.createVariables_complete (.tokens tokens) .new
  have hlisted : holder.compiled.names = ["a"] := by
    rw [show holder.compiled.names = _ from hnames, new.code_setInput hss ht]
    decide
  obtain ⟨hentries, hagain, hfound⟩ := hcreate (Scope.empty.add "b" (.integer 1))
  refine ⟨hlisted, ?_, hagain, hfound _ ?_ ?_⟩
  · rw [show created.entries = _ from hentries, hlisted]
    rfl
  · exact hlenient
  · rintro f args ⟨_, _, _, _, _, _, -, -, -, hf⟩
    cases hf
    exact .ok _

end Calculator

end Formula
