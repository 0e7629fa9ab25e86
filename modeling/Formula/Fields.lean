/-
The members of an object: names with values, in the order of the names by
code points and each name once. Insertion keeps the order and puts a later
value in place of an earlier one.
-/

namespace Formula

/-- Members in order of their names. -/
abbrev Fields (α : Type) := List (String × α)

namespace Fields

variable {α : Type}

/-- Whether members stand in order of their names, each name once. -/
def Ordered (fs : Fields α) : Prop := fs.Pairwise fun m n => m.1 < n.1

/-- Puts a member in its place, over an earlier one of the same name. -/
def insert (name : String) (value : α) : Fields α → Fields α
  | [] => [(name, value)]
  | (n, v) :: r =>
    if name = n then (name, value) :: r
    else if name < n then (name, value) :: (n, v) :: r
    else (n, v) :: insert name value r

/-- The members of a list; of several with one name the last counts. -/
def ofList (members : List (String × α)) : Fields α :=
  members.foldl (fun fs m => insert m.1 m.2 fs) []

/-- The value of a member. -/
def find? (name : String) : Fields α → Option α
  | [] => none
  | (n, v) :: r => if name = n then some v else find? name r

end Fields

end Formula
