/-
Letter case. Reserved words are looked up by their capitals, and the names of
variables and functions with the case of ASCII letters ignored. Where words
differ in that case only, both foldings agree, so that what is compiled from
them does the same with names that are the same (`concur_symbols_anyCase`).

Every step of such instructions concurs in a context that ignores the case of
names: it looks up the same things, gives the same value to the same operators
and functions, and reports failures with the same code at the same place, though
it may tell of a name in another spelling. A run follows step by step, with the
stack, which is the same on both sides, as the invariant (`concur_run`).

Main statement: tokens that differ in the case of words only are refused for the
same reason at the same place, or evaluate alike (`evaluateWith_anyCase`).
-/
import Formula.Expr.Calculator
import Formula.Proofs.Expr.Likeness
import Formula.Proofs.Expr.Scope
import Formula.Proofs.Text.Capitals

namespace Formula

/-- Faults that are reported with one code at one place. -/
structure Fault.Similar (f g : Fault) : Prop where
  code : f.cause.code = g.cause.code
  line : f.line = g.line
  column : f.column = g.column

theorem Fault.Similar.refl (f : Fault) : f.Similar f := ⟨rfl, rfl, rfl⟩

/-- Similar faults that are given one place stay similar. -/
theorem Fault.Similar.locate {f g : Fault} (h : f.Similar g) (p : Place) :
    (f.locate p).Similar (g.locate p) := by
  obtain ⟨cause, line, column, correlation⟩ := f
  obtain ⟨cause', line', column', correlation'⟩ := g
  obtain ⟨hcode, rfl, rfl⟩ := h
  cases line with
  | none => exact ⟨hcode, rfl, rfl⟩
  | some line => exact ⟨hcode, rfl, rfl⟩

/-- Names that are the same stand for the same function. -/
theorem Library.function?_congr (lib : Library) {m n : String} (h : sameName m n = true) :
    lib.function? m = lib.function? n := by
  unfold function? find?
  simp only [sameName_congr h]

/-- What it is for tokens to differ in the case of words only, the case of ASCII
letters. -/
structure Token.SameButCase (t u : Token) : Prop where
  kind : t.kind = u.kind
  place : t.place = u.place
  word : t.kind = .word ∨ t.kind = .keyword → sameName t.text u.text = true
  other : ¬(t.kind = .word ∨ t.kind = .keyword) → t.text = u.text

namespace Expr

/-- Names in any case, at the same places. -/
def anyCase : Likeness :=
  ⟨fun m n => sameName m n = true, Eq, sameName_refl, fun _ => rfl⟩

-- ================================================================== words

theorem truth?_congr {s t : String} (h : sameName s t = true) : truth? s = truth? t := by
  unfold truth?
  rw [capitals_of_sameName h]

theorem reserved?_congr {s t : String} (h : sameName s t = true) : reserved? s = reserved? t := by
  unfold reserved?
  rw [capitals_of_sameName h]

/-- Only values are constants, and no reserved word is one. -/
theorem getD_reserved?_ne_constant (text : String) :
    (reserved? text).getD .variable ≠ .constant := by
  have hreserved : ∀ r ∈ reserved, r.2 ≠ .constant := by decide
  unfold reserved?
  cases hfind : reserved.find? (fun r => r.1 == capitals text) with
  | none =>
      show Part.variable ≠ .constant
      decide
  | some r => exact hreserved r (List.mem_of_find?_eq_some hfind)

/-- A word in another case means the same, up to the case of names. -/
theorem contents_ofWord {s t : String} (h : sameName s t = true) :
    anyCase.Contents (ofWord s) (ofWord t) := by
  unfold ofWord
  rw [truth?_congr h]
  cases truth? t with
  | some b => exact .refl _
  | none =>
      refine ⟨?_, ?_, h⟩
      · show (reserved? s).getD .variable = (reserved? t).getD .variable
        rw [reserved?_congr h]
      · intro hconstant
        exact absurd hconstant (getD_reserved?_ne_constant s)

theorem tokens_anyCase {t u : Token} (h : t.SameButCase u) : anyCase.Tokens t u := by
  by_cases hword : t.kind = .word ∨ t.kind = .keyword
  · have hword' : u.kind = .word ∨ u.kind = .keyword := by
      rw [← h.kind]
      exact hword
    refine ⟨?_, h.place⟩
    rw [classify_of_word hword, classify_of_word hword']
    exact .ok (.some (contents_ofWord (h.word hword)))
  · exact .of_classify (classify_congr h.kind (h.other hword)) h.place

theorem concur_symbols_anyCase {ts us : List Token} (h : List.Forall₂ Token.SameButCase ts us) :
    Concur anyCase.Faults (List.Forall₂ anyCase.Symbols) (symbols ts) (symbols us) :=
  Likeness.concur_symbols (h.imp fun _ _ => tokens_anyCase)

/-- Failures to compile have the same code: they differ at most in a word that
they tell of. -/
theorem similar_of_faults {f g : Fault} (h : anyCase.Faults f g) : f.Similar g := by
  obtain ⟨hcause, hplace⟩ := h
  cases hplace
  cases hcause with
  | same c => exact .refl _
  | wrongOperand _ => exact ⟨rfl, rfl, rfl⟩
  | leftover _ => exact ⟨rfl, rfl, rfl⟩

theorem name_eq {i j : Instruction} (h : anyCase.Instructions i j) : i.name = j.name := by
  obtain ⟨step, place⟩ := i
  obtain ⟨step', place'⟩ := j
  cases h.step with
  | constant v => rfl
  | «variable» _ => rfl
  | function _ => rfl
  | array => rfl
  | monadic op _ => rfl
  | dyadic op _ => rfl

theorem map_name_eq {c d : List Instruction} (h : List.Forall₂ anyCase.Instructions c d) :
    c.map Instruction.name = d.map Instruction.name := by
  induction h with
  | nil => rfl
  | cons hi _ ih => rw [List.map_cons, List.map_cons, name_eq hi, ih]

-- ============================================================= evaluation

/-- What it is for a context to find the same by names that are the same. -/
structure Context.IgnoresCase (ctx : Context) : Prop where
  value : ∀ {m n}, sameName m n = true → ctx.valueOf? m = ctx.valueOf? n
  function : ∀ {m n}, sameName m n = true → ctx.functionOf? m = ctx.functionOf? n

section

variable {ctx : Context}

/-- What is read by names that are the same is the same, or missing. -/
theorem concur_read (hctx : ctx.IgnoresCase) {m n : String} (h : sameName m n = true) :
    Concur Fault.Similar Eq (ctx.read m) (ctx.read n) := by
  unfold Context.read
  rw [hctx.value h]
  cases ctx.valueOf? n with
  | none => exact .error ⟨rfl, rfl, rfl⟩
  | some v => exact .ok rfl

theorem concur_call (hctx : ctx.IgnoresCase) {m n : String} (h : sameName m n = true)
    (args : List Value) : Concur Fault.Similar Eq (ctx.call m args) (ctx.call n args) := by
  unfold Context.call
  rw [hctx.function h]
  cases ctx.functionOf? n with
  | none => exact .error ⟨rfl, rfl, rfl⟩
  | some f => exact .refl .refl (fun _ => rfl) _

/-- Alike steps do the same on one stack. -/
theorem concur_step (hctx : ctx.IgnoresCase) {s t : Step} (h : anyCase.Steps s t)
    (stack : Stack) : Concur Fault.Similar Eq (s.run ctx stack) (t.run ctx stack) := by
  cases h with
  | constant v => exact .ok rfl
  | «variable» hname =>
      refine (concur_read hctx hname).bind ?_
      rintro v _ rfl
      exact .ok rfl
  | function hname =>
      refine (Concur.refl .refl (fun _ => rfl) stack.popCounted).bind ?_
      rintro popped _ rfl
      refine (concur_call hctx hname popped.1).bind ?_
      rintro v _ rfl
      exact .ok rfl
  | array => exact .refl .refl (fun _ => rfl) _
  | monadic op _ => exact .refl .refl (fun _ => rfl) _
  | dyadic op _ => exact .refl .refl (fun _ => rfl) _

theorem concur_located {α : Type} {x y : Except Fault α} (h : Concur Fault.Similar Eq x y)
    (p : Place) : Concur Fault.Similar Eq (located p x) (located p y) := by
  cases h with
  | error hfault => exact .error (hfault.locate p)
  | ok hvalue => exact .ok hvalue

/-- Alike instructions do the same in order. -/
theorem concur_run (hctx : ctx.IgnoresCase) {c d : List Instruction}
    (h : List.Forall₂ anyCase.Instructions c d) (stack : Stack) :
    Concur Fault.Similar Eq (run ctx stack c) (run ctx stack d) := by
  induction h generalizing stack with
  | nil => exact .ok rfl
  | @cons i j c d hi _ ih =>
      have hplace : i.place = j.place := hi.place
      have hstep := concur_located (concur_step hctx hi.step stack) j.place
      rw [run, run, hplace]
      refine hstep.elim (fun hfault => .error hfault) ?_
      rintro next _ rfl
      exact ih next

theorem concur_evaluate (hctx : ctx.IgnoresCase) {c d : List Instruction}
    (h : List.Forall₂ anyCase.Instructions c d) :
    Concur Fault.Similar Eq (evaluate ctx c) (evaluate ctx d) := by
  unfold evaluate
  refine (concur_run hctx h .empty).elim (fun hfault => .error hfault) ?_
  rintro stack _ rfl
  exact .refl .refl (fun _ => rfl) _

end

/-- Scopes and libraries find the same by names that are the same. -/
theorem ignoresCase (scope : Scope) (lib : Library) (ops : Operations) :
    Context.IgnoresCase ⟨scope.value?, lib.function?, ops⟩ :=
  ⟨scope.value?_congr, lib.function?_congr⟩

end Expr

namespace Calculator

open Formula.Expr

-- ============================================================ main result

/-- The case of ASCII letters in words means nothing. Tokens that differ in it
only are either both refused, with the same code and at the same place, or
compiled to instructions of the same kinds, which evaluate to the same with all
variables, functions and operations: to one value, or to failures with the same
code and at the same place. -/
theorem evaluateWith_anyCase {ts us : List Token} (h : List.Forall₂ Token.SameButCase ts us)
    (c d : Calculator) :
    let x := c.setTokens ts
    let y := d.setTokens us
    (∃ f g, x.1 = some f ∧ y.1 = some g ∧ f.Similar g)
      ∨ (x.1 = none ∧ y.1 = none
        ∧ x.2.compiled.code.map Instruction.name = y.2.compiled.code.map Instruction.name
        ∧ ∀ (ops : Operations) (scope : Scope) (lib : Library),
          Concur Fault.Similar Eq ({ x.2 with operations := ops }.evaluateWith scope lib)
            ({ y.2 with operations := ops }.evaluateWith scope lib)) := by
  intro x y
  have hcompiled := Likeness.concur_ofTokens (concur_symbols_anyCase h)
  rcases Compiled.kept_cases hcompiled with ⟨f, g, hf, hg, hfaults⟩ | ⟨hx, hy, hcode, -⟩
  · exact .inl ⟨f, g, hf, hg, similar_of_faults hfaults⟩
  · refine .inr ⟨hx, hy, map_name_eq hcode, fun ops scope lib => ?_⟩
    exact concur_evaluate (ignoresCase scope lib ops) hcode

/-- `x is null` and `X Is NULL`, where `x` is null. -/
theorem evaluateWith_anyCase_isNull :
    let ts : List Token := [⟨.word, "x", ⟨1, 1⟩⟩, ⟨.word, "is", ⟨1, 3⟩⟩, ⟨.keyword, "null", ⟨1, 6⟩⟩]
    let us : List Token := [⟨.word, "X", ⟨1, 1⟩⟩, ⟨.word, "Is", ⟨1, 3⟩⟩, ⟨.keyword, "NULL", ⟨1, 6⟩⟩]
    let scope := Scope.empty.add "x" .null
    List.Forall₂ Token.SameButCase ts us
      ∧ (new.setTokens us).1 = none
      ∧ { (new.setTokens us).2 with operations := Coercion.strict.operations }.evaluateWith scope
        .standard = .ok (.boolean true) := by
  intro ts us scope
  let ss : List Symbol := [⟨.variable, .string "x", ⟨1, 1⟩⟩, ⟨.is, .string "is", ⟨1, 3⟩⟩,
    ⟨.null, .string "null", ⟨1, 6⟩⟩]
  let t : Tree := .monadic (.plain .isNull) (.variable "x" ⟨1, 1⟩) "is" ⟨1, 3⟩
  have hss : symbols ts = .ok ss := rfl
  have ht : tree ss = .ok t := by cbv
  have hts : Compiled.ofTokens ts = .ok _ := Compiled.ofSource_eq_ok_iff.2 ⟨ss, t, hss, ht, rfl⟩
  have hsame : List.Forall₂ Token.SameButCase ts us :=
    .cons ⟨rfl, rfl, fun _ => by decide, fun h => absurd (.inl rfl) h⟩
      (.cons ⟨rfl, rfl, fun _ => by decide, fun h => absurd (.inl rfl) h⟩
        (.cons ⟨rfl, rfl, fun _ => by decide, fun h => absurd (.inr rfl) h⟩ .nil))
  have hreport : (new.setTokens ts).1 = none := by
    rw [setTokens, hts]
    rfl
  have hvalue : { (new.setTokens ts).2 with operations := Coercion.strict.operations }.evaluateWith
      scope .standard = .ok (.boolean true) := by
    rw [setTokens, hts]
    rfl
  refine ⟨hsame, ?_⟩
  rcases evaluateWith_anyCase hsame new new with ⟨f, g, hf, -⟩ | ⟨-, hus, -, hevaluate⟩
  · have hfailed := hreport.symm.trans hf
    cases hfailed
  · refine ⟨hus, ?_⟩
    have hconcur := hevaluate Coercion.strict.operations scope .standard
    rw [hvalue] at hconcur
    generalize { (new.setTokens us).2 with operations := Coercion.strict.operations }.evaluateWith
      scope .standard = outcome at hconcur
    cases hconcur with
    | ok hsame =>
        cases hsame
        rfl

end Calculator

end Formula
