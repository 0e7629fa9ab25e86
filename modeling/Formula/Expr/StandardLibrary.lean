/-
The functions every calculator starts with. Those on one number give null
for null; those that round leave integers as they are.
-/
import Formula.Expr.Routine

namespace Formula

namespace Routine

-- ================================================================ shapes

/-- A function without arguments. -/
def constant (name : String) (value : Value) : Routine :=
  ⟨name, fun args _ => do
    expectCount name args 0
    .ok value⟩

/-- A function of one argument. -/
def ofOne (name : String) (run : Value → Operations → Outcome) : Routine :=
  ⟨name, fun args ops =>
    match args with
    | [a] => run a ops
    | args => .error (.of (.argumentCount name 1 args.length))⟩

/-- A function of two arguments. -/
def ofTwo (name : String) (run : Value → Value → Operations → Outcome) : Routine :=
  ⟨name, fun args ops =>
    match args with
    | [a, b] => run a b ops
    | args => .error (.of (.argumentCount name 2 args.length))⟩

/-- A function of at least one argument. -/
def ofSome (name : String) (run : Value → List Value → Operations → Outcome) : Routine :=
  ⟨name, fun args ops =>
    match args with
    | a :: rest => run a rest ops
    | [] => .error (.of (.tooFewArguments name 1 0))⟩

/-- A function on floats, null for null. -/
def ofFloat (name : String) (f : Float → Float) : Routine :=
  ofOne name fun v _ =>
    match v with
    | .null => .ok .null
    | v => (expectNumber name v).map fun x => .float (f x)

/-- A function that rounds floats and leaves integers. -/
def rounding (name : String) (f : Float → Float) : Routine :=
  ofOne name fun v _ =>
    match v with
    | .null => .ok .null
    | .integer n => .ok (.integer n)
    | v => (expectNumber name v).map fun x => .float (f x)

-- ============================================================== selection

/-- The argument that stays when each in turn replaces the one kept so far
if the operator says so. -/
def selectBy (op : Operator) (first : Value) (rest : List Value) (ops : Operations) : Outcome :=
  rest.foldlM (fun kept v => do
    let better ← ops.binary op v kept
    .ok (if better.truth then v else kept)) first

def min : Routine := ofSome "Min" (selectBy .less)

def max : Routine := ofSome "Max" (selectBy .more)

def sum : Routine :=
  ofSome "Sum" fun first rest ops => rest.foldlM (fun total v => ops.binary .add total v) first

/-- One of two values, by the truth of the first argument. -/
def ifThenElse : Routine :=
  ⟨"If", fun args _ =>
    match args with
    | [condition, yes, no] => .ok (if condition.truth then yes else no)
    | args => .error (.of (.argumentCount "If" 3 args.length))⟩

/-- The value at an index that counts from one; null out of range. -/
def choose : Routine :=
  ⟨"Choose", fun args ops =>
    match args with
    | index :: a :: rest => do
      let i ← ops.convert index .integer
      .ok (((Coercion.positionOf? i).bind fun n =>
        match n with
        | 0 => none
        | n + 1 => (a :: rest)[n]?).getD .null)
    | args => .error (.of (.tooFewArguments "Choose" 2 args.length))⟩

-- ================================================================ numbers

def abs : Routine :=
  ofOne "Abs" fun v _ =>
    match v with
    | .null => .ok .null
    | .integer n =>
      match Checked.abs n with
      | some n => .ok (.integer n)
      | none => .error (.of .absOverflow)
    | v => (expectNumber "Abs" v).map fun x => .float x.abs

/-- A float rounded to a number of decimal places, halves away from zero.
The places are kept within the range of powers of ten. -/
def roundTo (x : Float) (places : Int) : Float :=
  let factor := powerOfTen (Max.max (-308) (Min.min 308 places))
  (x * factor).round / factor

/-- A number rounded, to whole numbers if no places are given. -/
def roundValue (v : Value) (places : Except Fault Int) : Outcome :=
  match v with
  | .null => .ok .null
  | .integer n => .ok (.integer n)
  | v => do
    let x ← expectNumber "Round" v
    let places ← places
    .ok (.float (roundTo x places))

def round : Routine :=
  ⟨"Round", fun args ops =>
    match args with
    | [v] => roundValue v (.ok 0)
    | [v, places] => roundValue v ((ops.convert places .integer).map fun p =>
        (p.toInteger?.getD 0).toInt)
    | args => .error (.of (.argumentCount "Round" 1 args.length))⟩

def square : Routine := ofOne "Sqr" fun v ops => ops.binary .multiply v v

-- ============================================================ collections

/-- Whether a value is null or has nothing in it. -/
def isEmptyValue : Value → Bool
  | .null => true
  | .string s => s == ""
  | .array items => items.isEmpty
  | .object fields => fields.isEmpty
  | _ => false

def isEmpty : Routine := ofOne "Empty" fun v _ => .ok (.boolean (isEmptyValue v))

def contains : Routine :=
  ofTwo "Contains" fun container value ops => ops.binary .isIn value container

def array : Routine := ⟨"Array", fun args _ => .ok (.array args)⟩

end Routine

-- ============================================================ the library

/-- The base of natural logarithms. -/
def eulersNumber : Float := Float.ofBits 0x4005BF0A8B145769

/-- The ratio of a circle's circumference to its diameter. -/
def pi : Float := Float.ofBits 0x400921FB54442D18

/-- The standard functions. -/
def Library.standard : Library := ⟨[
  Routine.min,
  Routine.max,
  Routine.sum,
  Routine.ifThenElse,
  Routine.choose,
  Routine.constant "E" (.float eulersNumber),
  Routine.constant "Pi" (.float pi),
  Routine.abs,
  Routine.ofFloat "Acos" Float.acos,
  Routine.ofFloat "Asin" Float.asin,
  Routine.ofFloat "Atan" Float.atan,
  Routine.ofFloat "Exp" Float.exp,
  Routine.ofFloat "Log" Float.log,
  Routine.ofFloat "Ln" Float.log,
  Routine.ofFloat "Log10" Float.log10,
  Routine.ofFloat "Cos" Float.cos,
  Routine.ofFloat "Sin" Float.sin,
  Routine.ofFloat "Tan" Float.tan,
  Routine.ofFloat "Sqrt" Float.sqrt,
  Routine.rounding "Ceil" Float.ceil,
  Routine.rounding "Floor" Float.floor,
  Routine.rounding "Trunc" floatTrunc,
  Routine.round,
  Routine.square,
  Routine.isEmpty,
  Routine.constant "Null" .null,
  Routine.contains,
  Routine.array]⟩

end Formula
