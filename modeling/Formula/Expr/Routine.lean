/-
Functions that expressions can call, and the lists they are looked up in.
A function gets its arguments in the order they were written, and the
operations of the evaluation that calls it. Names are looked up without
regard to the case of ASCII letters; of several functions with one name the
first is called.
-/
import Formula.Value.Operations

namespace Formula

/-- A named function on values. -/
structure Routine where
  name : String
  run : List Value → Operations → Outcome

/-- Functions in the order they were added. -/
structure Library where
  routines : List Routine

namespace Library

/-- The library without functions. -/
def empty : Library := ⟨[]⟩

def size (lib : Library) : Nat := lib.routines.length

def isEmpty (lib : Library) : Bool := lib.routines.isEmpty

def names (lib : Library) : List String := lib.routines.map Routine.name

/-- Adds a function behind the others, even one whose name is taken. -/
def add (lib : Library) (r : Routine) : Library := ⟨lib.routines ++ [r]⟩

/-- Removes every function of a name. -/
def remove (lib : Library) (name : String) : Library :=
  ⟨lib.routines.filter fun r => !sameName r.name name⟩

/-- The function a name stands for. -/
def find? (lib : Library) (name : String) : Option Routine :=
  lib.routines.find? fun r => sameName r.name name

variable {lib : Library} {name : String} {r : Routine}

theorem mem_of_find? (h : lib.find? name = some r) : r ∈ lib.routines :=
  List.mem_of_find?_eq_some h

theorem sameName_of_find? (h : lib.find? name = some r) : sameName r.name name = true := by
  have hsame := List.find?_some h
  exact hsame

/-- What the function a name stands for computes. -/
def function? (lib : Library) (name : String) : Option (List Value → Operations → Outcome) :=
  (lib.find? name).map Routine.run

end Library

-- ============================================================== arguments

/-- Refuses any other number of arguments than `expected`. -/
def expectCount (name : String) (args : List Value) (expected : Nat) : Except Fault Unit :=
  if args.length = expected then .ok ()
  else .error (.of (.argumentCount name expected args.length))

/-- Refuses fewer arguments than `least`. -/
def expectAtLeast (name : String) (args : List Value) (least : Nat) : Except Fault Unit :=
  if least ≤ args.length then .ok ()
  else .error (.of (.tooFewArguments name least args.length))

/-- A numeric argument as a float. -/
def expectNumber (name : String) (v : Value) : Except Fault Float :=
  match v.toFloat? with
  | some x => .ok x
  | none => .error (.of (.notANumber name v.kind))

end Formula
