/-
Calculators after any history. Whatever was done to a calculator, either
nothing is compiled or what is compiled comes from a tree
(`compiled_after`), and which of the two it is can be told from what the
actions reported (`bare`). Evaluating nothing fails as an internal fault;
evaluating what comes from a tree does not, provided that functions and
operations do not fail that way themselves (`internal_iff_bare`).
-/
import Formula.Expr.Calculator
import Formula.Proofs.Expr.Footing
import Formula.Proofs.Value.Faults

namespace Formula

namespace Expr

variable {ctx : Context}

-- =============================================================== quietness

/-- Functions and operations that never report internal faults. -/
structure Quiet (ctx : Context) : Prop where
  call : ∀ n f vs fault, ctx.functionOf? n = some f →
    f vs ctx.operations = .error fault → fault.cause.code ≠ .internal
  unary : ∀ op a fault, ctx.operations.unary op a = .error fault →
    fault.cause.code ≠ .internal
  binary : ∀ op a b fault, ctx.operations.binary op a b = .error fault →
    fault.cause.code ≠ .internal

/-- A placed fault has the cause it was raised with. -/
theorem cause_of_placedAt {fault raised : Fault} {p : Place}
    (h : fault.PlacedAt raised p) : fault.cause = raised.cause := by
  by_cases hline : raised.line = none
  · rw [h.placed hline]
  · rw [h.kept hline]

theorem Quiet.operations (h : Quiet ctx) : ctx.operations.Avoids .internal := ⟨h.unary, h.binary⟩

section

variable {code : Code} {ops : Operations} (h : ops.Avoids code)

include h

/-- Operators on one operand fail as the operations do. -/
theorem Monadic.apply_avoids (op : Monadic) (a : Value) : Avoids code (op.apply ops a) := by
  cases op with
  | plain op => exact h.unary op a
  | isNotNull => exact (h.unary .isNull a).bind fun isNull => h.unary .not isNull

/-- Operators on two operands, likewise. -/
theorem Dyadic.apply_avoids (op : Dyadic) (a b : Value) : Avoids code (op.apply ops a b) := by
  cases op with
  | plain op => exact h.binary op a b
  | notIn => exact (h.binary .isIn a b).bind fun isIn => h.unary .not isIn
  | notLike => exact (h.binary .like a b).bind fun isLike => h.unary .not isLike

end

/-- What nodes raise is not internal. -/
theorem Raises.quiet (hquiet : Quiet ctx) {t : Tree} {p : Place}
    {raised : Fault} (h : Raises ctx t p raised) :
    raised.cause.code ≠ .internal := by
  cases h with
  | noVariable _ => intro h; cases h
  | noFunction _ _ => intro h; cases h
  | call _ hf h => exact hquiet.call _ _ _ _ hf h
  | monadic _ h => exact Monadic.apply_avoids hquiet.operations _ _ _ h
  | dyadic _ _ h => exact Dyadic.apply_avoids hquiet.operations _ _ _ _ h

/-- Trees do not fail with internal faults. -/
theorem Tree.quiet (hquiet : Quiet ctx) {t : Tree} {fault : Fault}
    (h : t.value ctx = .error fault) : fault.cause.code ≠ .internal := by
  obtain ⟨_, _, _, _, _, _, _, hraises, hplaced⟩ := t.failsFirst_of_value h
  rw [cause_of_placedAt hplaced]
  exact hraises.quiet hquiet

-- ============================================================ compilations

/-- What compiling tokens finds: their symbols, the tree of those, its code
and the variables in it. -/
theorem Compiled.ofSource_eq_ok_iff {source : String} {tokens : List Token}
    {compiled : Compiled} :
    ofSource source tokens = .ok compiled ↔
      ∃ ss t, Expr.symbols tokens = .ok ss ∧ Expr.tree ss = .ok t
        ∧ compiled = ⟨source, tokens, ss, t.code, variableNames t.code⟩ := by
  unfold ofSource
  cases hss : Expr.symbols tokens with
  | error fault => simp [bind, Except.bind]
  | ok ss =>
      cases ht : Expr.tree ss with
      | error fault => simp [bind, Except.bind, ht]
      | ok t => simp [bind, Except.bind, ht, eq_comm]

/-- What is compiled from a text is compiled from its tokens. -/
theorem Compiled.exists_ofSource {text : String} {compiled : Compiled}
    (h : ofText text = .ok compiled) :
    ∃ tokens, ofSource text tokens = .ok compiled := by
  unfold ofText at h
  cases htokens : Lexer.expression.tokens text with
  | error fault => rw [htokens] at h; cases h
  | ok tokens =>
      rw [htokens] at h
      exact ⟨tokens, h⟩

end Expr

namespace Calculator

open Formula.Expr

-- =============================================================== histories

/-- What is done to a calculator between evaluations. Variables and
functions may change in any way. -/
inductive Action where
  | setExpression (text : String)
  | setTokens (tokens : List Token)
  | clear
  | changeScope (scope : Scope)
  | changeLibrary (library : Library)
  | changeOperations (operations : Operations)
  | changeAutoVariables (on : Bool)

/-- What an action reports, and the calculator it leaves. -/
def perform (c : Calculator) : Action → Option Fault × Calculator
  | .setExpression text => c.setExpression text
  | .setTokens tokens => c.setTokens tokens
  | .clear => (none, c.clear)
  | .changeScope scope => (none, { c with scope := scope })
  | .changeLibrary library => (none, { c with library := library })
  | .changeOperations operations =>
    (none, { c with operations := operations })
  | .changeAutoVariables on => (none, { c with autoVariables := on })

/-- A calculator after some actions, the latest of them first. -/
def after : List Action → Calculator
  | [] => new
  | a :: earlier => ((after earlier).perform a).2

/-- Whether nothing is compiled: no expression was set, or the last one was
cleared, or to set it was reported to fail. -/
def bare : List Action → Bool
  | [] => true
  | .setExpression text :: earlier =>
    ((after earlier).setExpression text).1.isSome
  | .setTokens tokens :: earlier =>
    ((after earlier).setTokens tokens).1.isSome
  | .clear :: _ => true
  | .changeScope _ :: earlier => bare earlier
  | .changeLibrary _ :: earlier => bare earlier
  | .changeOperations _ :: earlier => bare earlier
  | .changeAutoVariables _ :: earlier => bare earlier

/-- What there is to evaluate: nothing, or what was compiled from some
tokens. -/
def Holds (compiled : Compiled) : Bool → Prop
  | true => compiled = .empty
  | false => ∃ source tokens, Compiled.ofSource source tokens = .ok compiled

/-- A calculator holds what it reports. -/
theorem holds_accept (c : Calculator) {attempt : Except Fault Compiled}
    (h : ∀ compiled, attempt = .ok compiled →
      ∃ source tokens, Compiled.ofSource source tokens = .ok compiled) :
    Holds (c.accept attempt).2.compiled (c.accept attempt).1.isSome := by
  cases attempt with
  | error fault => rfl
  | ok compiled => exact h compiled rfl

/-- After every history a calculator holds what was set last. -/
theorem compiled_after (history : List Action) :
    Holds (after history).compiled (bare history) := by
  induction history with
  | nil => rfl
  | cons a earlier ih =>
      cases a with
      | setExpression text =>
          refine holds_accept (after earlier) fun compiled h => ?_
          obtain ⟨tokens, h⟩ := Compiled.exists_ofSource h
          exact ⟨text, tokens, h⟩
      | setTokens tokens =>
          exact holds_accept (after earlier) fun compiled h =>
            ⟨_, tokens, h⟩
      | clear => rfl
      | changeScope scope => exact ih
      | changeLibrary library => exact ih
      | changeOperations operations => exact ih
      | changeAutoVariables on => exact ih

/-- After every history, evaluation fails with an internal fault exactly
where nothing is compiled, whatever the variables, and whatever the
functions and operations as long as they do not report such faults
themselves. Indeed all code that is compiled is steady. Code is a list in
memory, and so has fewer than `2 ^ 63` instructions. -/
theorem internal_iff_bare (history : List Action)
    (valueOf? : String → Option Value)
    (functionOf? : String → Option (List Value → Operations → Outcome))
    (hquiet : Quiet ⟨valueOf?, functionOf?, (after history).operations⟩)
    (hlength : (after history).compiled.code.length < 2 ^ 63) :
    ((∃ fault, (after history).evaluateIn valueOf? functionOf? = .error fault
        ∧ fault.cause.code = .internal) ↔ bare history = true)
      ∧ ∀ source tokens compiled,
          Compiled.ofSource source tokens = .ok compiled →
          compiled.code.length < 2 ^ 63 →
          ∀ ctx : Context, Steady ctx compiled.code := by
  refine ⟨?_, fun source tokens compiled hsource hlt ctx => ?_⟩
  · have hholds := compiled_after history
    cases hbare : bare history with
    | true =>
        rw [hbare] at hholds
        refine ⟨fun _ => rfl, fun _ => ?_⟩
        rw [evaluateIn, show (after history).compiled = .empty from hholds]
        exact ⟨_, rfl, rfl⟩
    | false =>
        rw [hbare] at hholds
        obtain ⟨source, tokens, hsource⟩ := hholds
        obtain ⟨ss, t, _, _, hcompiled⟩ :=
          Compiled.ofSource_eq_ok_iff.mp hsource
        have hcode : (after history).compiled.code = t.code := by
          rw [hcompiled]
        rw [hcode] at hlength
        refine ⟨?_, fun h => by cases h⟩
        rintro ⟨fault, hfault, hinternal⟩
        rw [evaluateIn, hcode, evaluate_of_run (run_code t .empty hlength)]
          at hfault
        exact absurd hinternal (t.quiet hquiet hfault)
  · obtain ⟨ss, t, _, _, rfl⟩ := Compiled.ofSource_eq_ok_iff.mp hsource
    exact steady_code ctx hlt

/-- After `f(x)` was set anew, with a function that collects its
arguments. -/
theorem internal_iff_bare_call :
    let tokens : List Token := [⟨.word, "f", ⟨1, 1⟩⟩,
      ⟨.symbol, "(", ⟨1, 2⟩⟩, ⟨.word, "x", ⟨1, 3⟩⟩,
      ⟨.symbol, ")", ⟨1, 4⟩⟩]
    let history : List Action := [.setTokens tokens,
      .changeOperations ⟨fun v _ => .ok v, fun _ v => .ok v,
        fun _ v _ => .ok v⟩,
      .clear]
    let ctx : Context := ⟨fun _ => some .null,
      fun _ => some fun args _ => .ok (.array args),
      (after history).operations⟩
    bare history = false
      ∧ (¬∃ fault, (after history).evaluateIn ctx.valueOf? ctx.functionOf?
          = .error fault ∧ fault.cause.code = .internal)
      ∧ Steady ctx (after history).compiled.code := by
  intro tokens history ctx
  let ss : List Symbol := [⟨.variable, .string "f", ⟨1, 1⟩⟩,
    ⟨.leftParen, .string "(", ⟨1, 2⟩⟩, ⟨.variable, .string "x", ⟨1, 3⟩⟩,
    ⟨.rightParen, .string ")", ⟨1, 4⟩⟩]
  let t : Tree := .call "f" [.variable "x" ⟨1, 3⟩] ⟨1, 1⟩
  have hss : symbols tokens = .ok ss := rfl
  have ht : tree ss = .ok t := by cbv
  have hsource : Compiled.ofTokens tokens = .ok _ :=
    Compiled.ofSource_eq_ok_iff.mpr ⟨ss, t, hss, ht, rfl⟩
  have hbare : bare history = false := by
    show ((after history.tail).setTokens tokens).1.isSome = false
    rw [setTokens, hsource]
    rfl
  have hcode : (after history).compiled.code = t.code := by
    show ((after history.tail).setTokens tokens).2.compiled.code = t.code
    rw [setTokens, hsource]
    rfl
  have hlength : t.code.length < 2 ^ 63 := by decide
  have hquiet : Quiet ctx := by
    refine ⟨?_, ?_, ?_⟩
    · intro n f vs fault hf h
      cases hf
      cases h
    · intro op a fault h
      cases h
    · intro op a b fault h
      cases h
  obtain ⟨hiff, hsteady⟩ := internal_iff_bare history ctx.valueOf?
    ctx.functionOf? hquiet (by rw [hcode]; exact hlength)
  refine ⟨hbare, ?_, ?_⟩
  · rw [hiff, hbare]
    exact Bool.false_ne_true
  · rw [hcode]
    exact hsteady _ tokens _ hsource hlength ctx

end Calculator

end Formula
