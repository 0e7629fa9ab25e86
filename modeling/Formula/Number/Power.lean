/-
Powers of two and of ten, as natural numbers.
-/

namespace Formula

/-- Two to the power of `n`. -/
def twoToThe (n : Nat) : Nat := Nat.pow 2 n

/-- Ten to the power of `n`. -/
def tenToThe (n : Nat) : Nat := Nat.pow 10 n

end Formula
