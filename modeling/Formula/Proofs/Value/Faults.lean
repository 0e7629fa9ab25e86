/-
What operations fail with. A coercion decides how values are converted and
brought together; whatever else is done with them fails only because it is not
supported, or divides by zero. So a code that a coercion never fails with is,
but for these two, one that its operations never fail with
(`Coercion.Avoids.operations`).

The strict and the lenient coercion refuse conversions and fail in no other
way (`Coercion.strict_avoids`, `Coercion.lenient_avoids`).
-/
import Formula.Proofs.Text.Wildcard
import Formula.Value.Operations

namespace Formula

-- =============================================================== results

section

variable {α β : Type} {code : Code} {x : Except Fault α}

/-- What it is for a result not to be a fault of some code. -/
def Avoids (code : Code) (x : Except Fault α) : Prop :=
  ∀ fault, x = .error fault → fault.cause.code ≠ code

namespace Avoids

theorem ok (a : α) : Avoids code (.ok a : Except Fault α) := by
  intro fault hfault
  cases hfault

theorem error {fault : Fault} (h : fault.cause.code ≠ code) :
    Avoids code (.error fault : Except Fault α) := by
  intro found hfound
  cases hfound
  exact h

theorem bind {f : α → Except Fault β} (h : Avoids code x) (hf : ∀ a, Avoids code (f a)) :
    Avoids code (x >>= f) := by
  cases x with
  | error fault => exact error (h fault rfl)
  | ok a => exact hf a

theorem map (f : α → β) (h : Avoids code x) : Avoids code (x.map f) := by
  cases x with
  | error fault => exact error (h fault rfl)
  | ok a => exact ok (f a)

end Avoids

end

-- ============================================================= coercions

namespace Coercion

/-- What it is for a coercion never to fail with a code. -/
structure Avoids (code : Code) (k : Coercion) : Prop where
  convert : ∀ v target, Formula.Avoids code (k.convert v target)
  meet : ∀ a b, Formula.Avoids code (k.meet a b)

section

variable {code : Code} (h : code ≠ .badConversion)

include h

theorem convertStrict_avoids (v : Value) (target : Value.Kind) :
    Formula.Avoids code (convertStrict v target) := by
  unfold convertStrict
  split
  · exact .ok v
  · split
    · exact .ok _
    · exact .ok _
    · exact .error h.symm

theorem convertLenient_avoids (v : Value) (target : Value.Kind) :
    Formula.Avoids code (convertLenient v target) := by
  unfold convertLenient
  split
  · exact .ok v
  · split
    · exact .ok _
    · exact .error h.symm

/-- The strict coercion refuses conversions and fails in no other way. -/
theorem strict_avoids : strict.Avoids code where
  convert := convertStrict_avoids h
  meet left right := (convertStrict_avoids h right left.kind).map _

/-- The lenient coercion refuses conversions and fails in no other way. -/
theorem lenient_avoids : lenient.Avoids code where
  convert := convertLenient_avoids h
  meet left right := by
    unfold lenient
    dsimp only
    split
    · exact .ok _
    · exact (convertLenient_avoids h left right.kind).map _

end

-- ============================================================ arithmetic

section

variable {code : Code} (hunsupported : code ≠ .unsupportedOperation)

include hunsupported

theorem unsupported_avoids (operation : String) (a b : Value) :
    Formula.Avoids code (.error (unsupported operation a b) : Outcome) :=
  .error hunsupported.symm

theorem orOverflow_avoids (operation : String) (n : Option Int64) :
    Formula.Avoids code (orOverflow operation n) := by
  cases n with
  | none => exact .error hunsupported.symm
  | some n => exact .ok _

theorem negative_avoids (v : Value) : Formula.Avoids code (negative v) := by
  cases v with
  | null => exact .ok _
  | integer n => exact orOverflow_avoids hunsupported "-" _
  | float x => exact .ok _
  | _ => exact .error hunsupported.symm

theorem powerOf_avoids (a b : Value) : Formula.Avoids code (powerOf a b) := by
  unfold powerOf
  split
  · split
    · exact orOverflow_avoids hunsupported "^" _
    · exact .ok _
  · split
    · exact .ok _
    · exact unsupported_avoids hunsupported "^" _ _

theorem compareAlike_avoids (a b : Value) : Formula.Avoids code (compareAlike a b) := by
  unfold compareAlike
  split
  · exact .ok _
  · exact .ok _
  · exact .ok _
  · exact .ok _
  · exact .error hunsupported.symm

end

namespace Avoids

variable {code : Code} {k : Coercion} (h : k.Avoids code)

include h

/-- A binary operation on numbers fails as bringing the operands together
does, or as what is done with operands of one kind. -/
theorem arithmetic (scaled : Scaled → Scaled → Option Scaled) (floats : Float → Float → Float)
    {common : Value → Value → Outcome} (hcommon : ∀ a b, Formula.Avoids code (common a b))
    (a b : Value) : Formula.Avoids code (k.arithmetic scaled floats common a b) := by
  unfold Coercion.arithmetic
  split
  · exact .ok _
  · split
    · exact .ok _
    · exact (h.meet a b).bind fun met => hcommon met.1 met.2

theorem asText (v : Value) : Formula.Avoids code (k.asText v) := (h.convert v .string).map _

/-- No pattern is refused. -/
theorem like (value pattern : Value) : Formula.Avoids code (k.like value pattern) := by
  unfold Coercion.like likeWith
  split
  · exact .ok _
  · refine (h.asText value).bind fun s => (h.asText pattern).bind fun p => ?_
    obtain ⟨finds, hbuild, -⟩ := Wildcard.build_of_follows Regex.standard_follows p.toList
    rw [hbuild]
    exact .ok _

variable (hunsupported : code ≠ .unsupportedOperation)

include hunsupported

theorem add (a b : Value) : Formula.Avoids code (k.add a b) := by
  unfold Coercion.add
  refine h.arithmetic _ _ (fun a b => ?_) a b
  split
  · exact orOverflow_avoids hunsupported "+" _
  · exact .ok _
  · exact .ok _
  · exact .ok _
  · exact unsupported_avoids hunsupported "+" _ _

theorem subtract (a b : Value) : Formula.Avoids code (k.subtract a b) := by
  unfold Coercion.subtract
  refine h.arithmetic _ _ (fun a b => ?_) a b
  split
  · exact orOverflow_avoids hunsupported "-" _
  · exact .ok _
  · exact unsupported_avoids hunsupported "-" _ _

theorem multiply (a b : Value) : Formula.Avoids code (k.multiply a b) := by
  unfold Coercion.multiply
  refine h.arithmetic _ _ (fun a b => ?_) a b
  split
  · exact orOverflow_avoids hunsupported "*" _
  · exact .ok _
  · exact unsupported_avoids hunsupported "*" _ _

theorem divide (hzero : code ≠ .divisionByZero) (a b : Value) :
    Formula.Avoids code (k.divide a b) := by
  unfold Coercion.divide
  refine h.arithmetic _ _ (fun a b => ?_) a b
  split
  · split
    · exact .error hzero.symm
    · exact orOverflow_avoids hunsupported "/" _
  · exact .ok _
  · exact unsupported_avoids hunsupported "/" _ _

theorem remainder (hzero : code ≠ .divisionByZero) (a b : Value) :
    Formula.Avoids code (k.remainder a b) := by
  unfold Coercion.remainder
  refine h.arithmetic _ _ (fun a b => ?_) a b
  split
  · split
    · exact .error hzero.symm
    · exact orOverflow_avoids hunsupported "%" _
  · exact .ok _
  · exact unsupported_avoids hunsupported "%" _ _

theorem power (a b : Value) : Formula.Avoids code (k.power a b) := by
  unfold Coercion.power
  split
  · exact .ok _
  · split
    · exact powerOf_avoids hunsupported a b
    · exact (h.meet a b).bind fun met => powerOf_avoids hunsupported met.1 met.2

theorem shift (operation : String) (move : Int64 → Nat → Option Int64) (a b : Value) :
    Formula.Avoids code (k.shift operation move a b) := by
  unfold Coercion.shift
  split
  · exact .ok _
  · refine (h.convert a .integer).bind fun a => (h.convert b .integer).bind fun b => ?_
    split
    · exact orOverflow_avoids hunsupported operation _
    · exact unsupported_avoids hunsupported operation _ _

theorem logic (operation : String) (truths : Bool → Bool → Bool) (bits : Int64 → Int64 → Int64)
    (a b : Value) : Formula.Avoids code (k.logic operation truths bits a b) := by
  unfold Coercion.logic
  split
  · exact .ok _
  · split
    · exact .ok _
    · refine (h.convert a .boolean).bind fun a => (h.convert b .boolean).bind fun b => ?_
      split
      · exact .ok _
      · exact unsupported_avoids hunsupported operation _ _

theorem not (v : Value) : Formula.Avoids code (k.not v) := by
  unfold Coercion.not
  split
  · exact .ok _
  · exact .ok _
  · exact .ok _
  · refine (h.convert v .boolean).bind fun w => ?_
    split
    · exact .ok _
    · exact unsupported_avoids hunsupported "NOT" _ _

-- ============================================================ comparison

theorem order (a b : Value) : Formula.Avoids code (k.order a b) := by
  unfold Coercion.order
  split
  · exact .ok _
  · split
    · exact .ok _
    · split
      · exact .ok _
      · exact (h.meet a b).bind fun met => compareAlike_avoids hunsupported met.1 met.2

theorem equals (a b : Value) : Formula.Avoids code (k.equals a b) := by
  unfold Coercion.equals
  split
  · exact .ok _
  · exact .ok _
  · exact .ok _
  · split
    · exact (h.order hunsupported a b).map _
    · exact (h.meet a b).bind fun _ => .ok _

-- =========================================================== collections

theorem holds (value collection : Value) : Formula.Avoids code (k.holds value collection) := by
  unfold Coercion.holds
  split
  · exact .ok _
  · exact .ok _
  · split
    · exact .ok _
    · exact (h.asText value).map _
  · exact (h.asText value).map _
  · exact h.equals hunsupported value collection

theorem element (container index : Value) : Formula.Avoids code (k.element container index) := by
  unfold Coercion.element
  split
  · exact .ok _
  · exact (h.convert index .integer).bind fun _ => .ok _
  · exact (h.convert index .integer).bind fun _ => .ok _
  · exact (h.asText index).bind fun _ => .ok _
  · exact .error hunsupported.symm

end Avoids

end Coercion

-- ============================================================ operations

/-- What it is for operations never to fail with a code. -/
structure Operations.Avoids (code : Code) (ops : Operations) : Prop where
  unary : ∀ op v, Formula.Avoids code (ops.unary op v)
  binary : ∀ op a b, Formula.Avoids code (ops.binary op a b)

/-- Operations never fail with what the coercion they are built on does not
fail with, other than that they are not supported or divide by zero. -/
theorem Coercion.Avoids.operations {code : Code} {k : Coercion} (h : k.Avoids code)
    (hunsupported : code ≠ .unsupportedOperation) (hzero : code ≠ .divisionByZero) :
    k.operations.Avoids code where
  unary op v := by
    cases op with
    | negative => exact negative_avoids hunsupported v
    | not => exact h.not hunsupported v
    | isNull => exact .ok _
  binary op a b := by
    cases op with
    | add => exact h.add hunsupported a b
    | subtract => exact h.subtract hunsupported a b
    | multiply => exact h.multiply hunsupported a b
    | divide => exact h.divide hunsupported hzero a b
    | remainder => exact h.remainder hunsupported hzero a b
    | power => exact h.power hunsupported a b
    | shiftLeft | shiftRight => exact h.shift hunsupported _ _ a b
    | and | or | xor => exact h.logic hunsupported _ _ _ a b
    | equal | notEqual => exact (h.equals hunsupported a b).map _
    | more | less | moreEqual | lessEqual => exact (h.order hunsupported a b).map _
    | isIn => exact (h.holds hunsupported a b).map _
    | like => exact h.like a b
    | element => exact h.element hunsupported a b

end Formula
