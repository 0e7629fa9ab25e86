/-
The stack that instructions work on.
-/
import Formula.Fault

namespace Formula

/-- Values, the top one first. -/
structure Stack where
  values : List Value

namespace Stack

def empty : Stack := ⟨[]⟩

def size (s : Stack) : Nat := s.values.length

def isEmpty (s : Stack) : Bool := s.values.isEmpty

def top? (s : Stack) : Option Value := s.values.head?

def push (s : Stack) (v : Value) : Stack := ⟨v :: s.values⟩

/-- The top value and the stack below it. -/
def pop (s : Stack) : Except Fault (Value × Stack) :=
  match s.values with
  | [] => .error (.of .emptyStack)
  | v :: vs => .ok (v, ⟨vs⟩)

/-- Puts `n` values from the top in front of `above`: the deepest first. -/
def popOnto (s : Stack) (above : List Value) : Nat → Except Fault (List Value × Stack)
  | 0 => .ok (above, s)
  | n + 1 =>
    match s.pop with
    | .error fault => .error fault
    | .ok (v, s) => s.popOnto (v :: above) n

/-- The number of values a count stands for. -/
def countOf? (v : Value) : Option Nat :=
  v.toInteger?.bind fun n => if 0 ≤ n.toInt then some n.toInt.toNat else none

/-- Takes a count and then that many values, in the order they were
pushed. -/
def popCounted (s : Stack) : Except Fault (List Value × Stack) :=
  match s.pop with
  | .error fault => .error fault
  | .ok (count, s) =>
    match countOf? count with
    | none => .error (.of .badCount)
    | some n => s.popOnto [] n

end Stack

end Formula
