/-
Scopes: variables in the order they were added, looked up by name without
regard to the case of ASCII letters. Adding never replaces, so several
variables may share a name; the first of them is the one that is read and
set, and removing takes all of them.
-/
import Formula.Text.Case
import Formula.Value.Basic

namespace Formula

/-- A named value. -/
structure Variable where
  name : String
  value : Value

/-- Variables in order. -/
structure Scope where
  entries : List Variable

namespace Scope

/-- The scope without variables. -/
def empty : Scope := ⟨[]⟩

def size (s : Scope) : Nat := s.entries.length

def isEmpty (s : Scope) : Bool := s.entries.isEmpty

/-- The variable a name stands for. -/
def find? (s : Scope) (name : String) : Option Variable :=
  s.entries.find? fun v => sameName v.name name

/-- The value a name stands for. -/
def value? (s : Scope) (name : String) : Option Value := (s.find? name).map Variable.value

/-- Adds a variable behind the others. -/
def add (s : Scope) (name : String) (value : Value) : Scope :=
  ⟨s.entries ++ [⟨name, value⟩]⟩

/-- Gives a new value to the first variable of a name in a list. -/
def assignIn (name : String) (value : Value) : List Variable → List Variable
  | [] => []
  | v :: vs =>
    if sameName v.name name then { v with value := value } :: vs else v :: assignIn name value vs

/-- Gives a new value to a variable; a scope without it stays as it is. -/
def update (s : Scope) (name : String) (value : Value) : Scope :=
  ⟨assignIn name value s.entries⟩

/-- Gives a variable a value, adding it where it is missing. -/
def set (s : Scope) (name : String) (value : Value) : Scope :=
  if (s.find? name).isSome then s.update name value else s.add name value

/-- Removes every variable of a name. -/
def remove (s : Scope) (name : String) : Scope :=
  ⟨s.entries.filter fun v => !sameName v.name name⟩

/-- Adds, holding null, each of some variables that is missing. -/
def addMissing (s : Scope) (names : List String) : Scope :=
  names.foldl (fun s n => if (s.find? n).isSome then s else s.add n .null) s

end Scope

end Formula
