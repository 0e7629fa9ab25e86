/-
Evaluation with operations that extend others. Every step extends the same
step with the others (`Step.run_extends`), and so does every run. The
standard functions do so as well, since they do with their arguments only
what operations do with them; the one that searches a collection is left
aside, as the operators are that search.

Main statement: a value that the strict operations compute is the value that
the lenient ones compute (`evaluate_lenient_of_strict`).
-/
import Formula.Expr.Calculator
import Formula.Proofs.Value.Extension

namespace Formula

-- ============================================================= functions

namespace Routine

/-- What it is for a function to do with its arguments what the operations
do with them: with operations that extend others, it gives what it gives with
the others. -/
def Monotone (r : Routine) : Prop :=
  ∀ ⦃p q : Operations⦄, q.Extends p → ∀ args, Extends (r.run args q) (r.run args p)

/-- A function that does not look at the operations gives the same with
all. -/
theorem monotone_of_eq {r : Routine} (h : ∀ args p q, r.run args q = r.run args p) :
    r.Monotone := by
  intro p q _ args
  rw [h args p q]
  exact .refl _

theorem monotone_constant (name : String) (value : Value) : (constant name value).Monotone :=
  monotone_of_eq fun _ _ _ => rfl

theorem monotone_ofFloat (name : String) (f : Float → Float) : (ofFloat name f).Monotone :=
  monotone_of_eq fun _ _ _ => rfl

theorem monotone_rounding (name : String) (f : Float → Float) : (rounding name f).Monotone :=
  monotone_of_eq fun _ _ _ => rfl

section

variable {p q : Operations}

/-- Folding arguments extends where each step does. -/
theorem extends_foldlM {f g : Value → Value → Outcome} (h : ∀ kept v, Extends (g kept v) (f kept v))
    (rest : List Value) (first : Value) : Extends (rest.foldlM g first) (rest.foldlM f first) := by
  induction rest generalizing first with
  | nil => exact .refl _
  | cons v rest ih => exact (h first v).bind fun kept => ih kept

theorem extends_selectBy (h : q.Extends p) (op : Operator) (hop : op ≠ .isIn) (first : Value)
    (rest : List Value) : Extends (selectBy op first rest q) (selectBy op first rest p) :=
  extends_foldlM (fun kept v => (h.binary op v kept hop).bind fun _ => .refl _) rest first

end

theorem monotone_min : min.Monotone := by
  intro p q h args
  cases args with
  | nil => exact .refl _
  | cons first rest => exact extends_selectBy h .less nofun first rest

theorem monotone_max : max.Monotone := by
  intro p q h args
  cases args with
  | nil => exact .refl _
  | cons first rest => exact extends_selectBy h .more nofun first rest

theorem monotone_sum : sum.Monotone := by
  intro p q h args
  cases args with
  | nil => exact .refl _
  | cons first rest => exact extends_foldlM (fun total v => h.binary .add total v nofun) rest first

theorem monotone_choose : choose.Monotone := by
  intro p q h args
  match args with
  | [] => exact .refl _
  | [_] => exact .refl _
  | index :: a :: rest => exact (h.convert index .integer).bind fun _ => .refl _

theorem monotone_round : round.Monotone := by
  intro p q h args
  match args with
  | [] => exact .refl _
  | [_] => exact .refl _
  | _ :: _ :: _ :: _ => exact .refl _
  | [v, places] =>
      have hplaces := (h.convert places .integer).map fun p => (p.toInteger?.getD 0).toInt
      cases v with
      | null => exact .refl _
      | integer n => exact .refl _
      | _ => exact (Extends.refl _).bind fun _ => hplaces.bind fun _ => .refl _

theorem monotone_square : square.Monotone := by
  intro p q h args
  match args with
  | [] => exact .refl _
  | _ :: _ :: _ => exact .refl _
  | [v] => exact h.binary .multiply v v nofun

/-- The standard functions do with their arguments what the operations do
with them, except for the one that searches. -/
theorem monotone_standard :
    ∀ r ∈ Library.standard.routines, r.name ≠ "Contains" → r.Monotone := by
  simp only [Library.standard, List.forall_mem_cons]
  refine ⟨fun _ => monotone_min, fun _ => monotone_max, fun _ => monotone_sum,
    fun _ => monotone_of_eq fun _ _ _ => rfl, fun _ => monotone_choose,
    fun _ => monotone_constant _ _, fun _ => monotone_constant _ _,
    fun _ => monotone_of_eq fun _ _ _ => rfl,
    fun _ => monotone_ofFloat _ _, fun _ => monotone_ofFloat _ _, fun _ => monotone_ofFloat _ _,
    fun _ => monotone_ofFloat _ _, fun _ => monotone_ofFloat _ _, fun _ => monotone_ofFloat _ _,
    fun _ => monotone_ofFloat _ _, fun _ => monotone_ofFloat _ _, fun _ => monotone_ofFloat _ _,
    fun _ => monotone_ofFloat _ _, fun _ => monotone_ofFloat _ _,
    fun _ => monotone_rounding _ _, fun _ => monotone_rounding _ _,
    fun _ => monotone_rounding _ _, fun _ => monotone_round, fun _ => monotone_square,
    fun _ => monotone_of_eq fun _ _ _ => rfl, fun _ => monotone_constant _ _,
    fun h => absurd rfl h, fun _ => monotone_of_eq fun _ _ _ => rfl, by simp⟩

end Routine

-- ============================================================ evaluation

namespace Expr

/-- Whether a step searches a collection: `IN`, `NOT IN`, and calls of
`Contains` in any case. -/
def Step.searches : Step → Bool
  | .dyadic (.plain .isIn) _ => true
  | .dyadic .notIn _ => true
  | .function name => sameName name "Contains"
  | _ => false

/-- Any variables, with the standard functions and some operations. -/
def standardContext (valueOf? : String → Option Value) (ops : Operations) : Context :=
  ⟨valueOf?, Library.standard.function?, ops⟩

section

variable {p q : Operations} (h : q.Extends p) (valueOf? : String → Option Value)

include h

theorem extends_call {name : String} (hname : sameName name "Contains" = false)
    (args : List Value) :
    Extends ((standardContext valueOf? q).call name args)
      ((standardContext valueOf? p).call name args) := by
  unfold Context.call standardContext Library.function?
  dsimp only
  cases hfind : Library.standard.find? name with
  | none => exact .refl _
  | some r =>
      have hother : r.name ≠ "Contains" := by
        intro hcontains
        have hsame : sameName r.name name = true := Library.sameName_of_find? hfind
        rw [hcontains, sameName_comm, hname] at hsame
        cases hsame
      exact Routine.monotone_standard r (Library.mem_of_find? hfind) hother h args

theorem extends_monadic (op : Monadic) (v : Value) : Extends (op.apply q v) (op.apply p v) := by
  cases op with
  | plain op => exact h.unary op v
  | isNotNull => exact (h.unary .isNull v).bind fun isNull => h.unary .not isNull

theorem extends_dyadic {op : Dyadic} {text : String}
    (hop : (Step.dyadic op text).searches = false) (a b : Value) :
    Extends (op.apply q a b) (op.apply p a b) := by
  cases op with
  | plain op =>
      refine h.binary op a b ?_
      rintro rfl
      cases hop
  | notIn => cases hop
  | notLike => exact (h.binary .like a b nofun).bind fun isLike => h.unary .not isLike

/-- A step with operations that extend others leaves the stack that it
leaves with the others. -/
theorem Step.run_extends {step : Step} (hstep : step.searches = false) (stack : Stack) :
    Extends (step.run (standardContext valueOf? q) stack)
      (step.run (standardContext valueOf? p) stack) := by
  cases step with
  | constant v => exact .refl _
  | «variable» name => exact .refl _
  | function name =>
      exact (Extends.refl _).bind fun popped =>
        (extends_call h valueOf? hstep popped.1).bind fun _ => .refl _
  | array => exact .refl _
  | monadic op text =>
      exact (Extends.refl _).bind fun popped =>
        (extends_monadic h op popped.1).bind fun _ => .refl _
  | dyadic op text =>
      exact (Extends.refl _).bind fun right => (Extends.refl _).bind fun left =>
        (extends_dyadic h hstep left.1 right.1).bind fun _ => .refl _

/-- So does a run, step by step. -/
theorem run_extends {code : List Instruction} (hcode : ∀ i ∈ code, i.step.searches = false)
    (stack : Stack) :
    Extends (run (standardContext valueOf? q) stack code)
      (run (standardContext valueOf? p) stack code) := by
  induction code generalizing stack with
  | nil => exact .refl _
  | cons i code ih =>
      intro final hfinal
      have hi : i.step.searches = false := hcode i (List.mem_cons_self ..)
      rw [run] at hfinal ⊢
      cases hstep : i.step.run (standardContext valueOf? p) stack with
      | error fault =>
          rw [hstep] at hfinal
          cases hfinal
      | ok next =>
          rw [hstep] at hfinal
          rw [Step.run_extends h valueOf? hi stack next hstep]
          exact ih (fun j hj => hcode j (List.mem_cons_of_mem i hj)) next final hfinal

end

/-- Where instructions do not search collections, the value that the strict
operations compute, if they do compute one, is the value that the lenient
operations compute: whatever the variables are, and with the standard
functions. -/
theorem evaluate_lenient_of_strict {code : List Instruction}
    (hcode : ∀ i ∈ code, i.step.searches = false) (valueOf? : String → Option Value) {v : Value}
    (hv : evaluate ⟨valueOf?, Library.standard.function?, Coercion.strict.operations⟩ code
      = .ok v) :
    evaluate ⟨valueOf?, Library.standard.function?, Coercion.lenient.operations⟩ code = .ok v := by
  have hrun := run_extends Coercion.lenient_extends_strict.operations valueOf? hcode .empty
  change evaluate (standardContext valueOf? Coercion.strict.operations) code = .ok v at hv
  show evaluate (standardContext valueOf? Coercion.lenient.operations) code = .ok v
  unfold evaluate at hv ⊢
  cases hstack : run (standardContext valueOf? Coercion.strict.operations) .empty code with
  | error fault =>
      rw [hstack] at hv
      cases hv
  | ok stack =>
      rw [hstack] at hv
      rw [hrun stack hstack]
      exact hv

/-- `Max(n, 3) = 7 AND s LIKE 'a%'`, where `n` is seven and `s` is `abc`. -/
theorem evaluate_lenient_of_strict_max :
    let t : Tree := .dyadic (.plain .and)
      (.dyadic (.plain .equal)
        (.call "Max" [.variable "n" ⟨1, 5⟩, .constant (.integer 3) ⟨1, 8⟩] ⟨1, 1⟩)
        (.constant (.integer 7) ⟨1, 13⟩) "=" ⟨1, 11⟩)
      (.dyadic (.plain .like) (.variable "s" ⟨1, 19⟩) (.constant (.string "a%") ⟨1, 26⟩)
        "LIKE" ⟨1, 21⟩)
      "AND" ⟨1, 15⟩
    let scope := (Scope.empty.add "n" (.integer 7)).add "s" (.string "abc")
    evaluate ⟨scope.value?, Library.standard.function?, Coercion.lenient.operations⟩ t.code
      = .ok (.boolean true) := by
  intro t scope
  have hplain : ∀ i ∈ t.code, i.step.searches = false := by decide
  exact evaluate_lenient_of_strict hplain scope.value? rfl

end Expr

end Formula
