/-
Reading expressions from symbols by recursive descent.

A reader takes something from the front of the symbols left and returns the
rest, which is shorter. The five levels of binary operators all have one
form: an operand of the next level, and then as long as there is a joint of
this level, the joint and, unless it stands behind its operand, one operand
more. So they are five uses of `chain`, which groups to the left.

Nesting is limited. A rung holds the readers that may still descend so many
levels: an operand on a rung reads what is inside it on the rung below. The
floor reads nothing, and says so at the symbol that would have been nested
too deep.
-/
import Formula.Expr.Symbol
import Formula.Expr.Tree

namespace Formula

namespace Expr

-- ================================================================ readers

/-- Why reading stopped, and the symbol at which; none at the end. -/
structure Halt where
  cause : Cause
  place : Option Place

/-- What was read, and fewer than `bound` symbols left. -/
structure Parsed (α : Type) (bound : Nat) where
  value : α
  rest : List Symbol
  short : rest.length < bound

namespace Parsed

variable {α β : Type} {n m : Nat}

/-- The same with more symbols allowed for. -/
def weaken (r : Parsed α n) (h : n ≤ m) : Parsed α m :=
  ⟨r.value, r.rest, Nat.lt_of_lt_of_le r.short h⟩

/-- The same with a value made from the one read. -/
def map (f : α → β) (r : Parsed α n) : Parsed β n := ⟨f r.value, r.rest, r.short⟩

end Parsed

/-- A reader of something at the front of the symbols. -/
abbrev Reader (α : Type) := (ss : List Symbol) → Except Halt (Parsed α ss.length)

/-- The symbol wanted, or the cause given. -/
def expect (part : Part) (cause : Cause) : Reader Unit
  | [] => .error ⟨cause, none⟩
  | s :: ss => if s.part = part then .ok ⟨(), ss, by simp⟩ else .error ⟨cause, some s.place⟩

-- ================================================================= chains

/-- What may follow an operand on one level. -/
inductive Joint where
  /-- An operator with an operand behind it. -/
  | between (op : Dyadic)
  /-- An operator with nothing behind it. -/
  | behind (op : Monadic)
  deriving DecidableEq

/-- The joints of a level: for a symbol and those after it, the joint that
begins there and how many of those after it belong to it. -/
abbrev Joints := Symbol → List Symbol → Option (Joint × Nat)

/-- Reads on after an operand as long as there are joints. -/
def chainFrom (joints : Joints) (operand : Reader Tree) (left : Tree) :
    (ss : List Symbol) → Except Halt (Parsed Tree (ss.length + 1))
  | [] => .ok ⟨left, [], by simp⟩
  | s :: ss =>
    match joints s ss with
    | none => .ok ⟨left, s :: ss, by simp⟩
    | some (.behind op, n) =>
      (chainFrom joints operand (.monadic op left s.value.text s.place) (ss.drop n)).map
        (·.weaken (by simp; omega))
    | some (.between op, n) =>
      match operand (ss.drop n) with
      | .error halt => .error halt
      | .ok right =>
        (chainFrom joints operand (.dyadic op left right.value s.value.text s.place) right.rest).map
          (·.weaken (by have := right.short; simp at this ⊢; omega))
termination_by ss => ss.length
decreasing_by
  · simp only [List.length_cons, List.length_drop]; omega
  · have := right.short
    simp at this ⊢
    omega

/-- Reads an operand and what is joined to it. -/
def chain (joints : Joints) (operand : Reader Tree) : Reader Tree := fun ss =>
  match operand ss with
  | .error halt => .error halt
  | .ok first =>
    (chainFrom joints operand first.value first.rest).map (·.weaken first.short)

-- ================================================================= levels

/-- A level whose joints are single symbols. -/
def single (table : Part → Option Operator) : Joints := fun s _ =>
  (table s.part).map fun op => (.between (.plain op), 0)

/-- `AND`, `OR` and `XOR`. -/
def logicalJoints : Joints := single fun
  | .and => some .and
  | .or => some .or
  | .xor => some .xor
  | _ => none

/-- Comparisons. -/
def relationalJoints : Joints := single fun
  | .equal => some .equal
  | .notEqual => some .notEqual
  | .more => some .more
  | .less => some .less
  | .moreEqual => some .moreEqual
  | .lessEqual => some .lessEqual
  | _ => none

/-- `+`, `-` and `LIKE`, and the combinations `NOT LIKE`, `NOT IN`,
`IS NULL` and `IS NOT NULL`. -/
def additiveJoints : Joints := fun s ss =>
  match s.part, ss.map Symbol.part with
  | .not, .like :: _ => some (.between .notLike, 1)
  | .not, .isIn :: _ => some (.between .notIn, 1)
  | .is, .not :: .null :: _ => some (.behind .isNotNull, 2)
  | .is, .null :: _ => some (.behind (.plain .isNull), 1)
  | .plus, _ => some (.between (.plain .add), 0)
  | .minus, _ => some (.between (.plain .subtract), 0)
  | .like, _ => some (.between (.plain .like), 0)
  | _, _ => none

/-- `*`, `/` and `%`. -/
def multiplicativeJoints : Joints := single fun
  | .star => some .multiply
  | .slash => some .divide
  | .percent => some .remainder
  | _ => none

/-- `^`, `IN`, `<<` and `>>`. -/
def powerJoints : Joints := single fun
  | .power => some .power
  | .isIn => some .isIn
  | .shiftLeft => some .shiftLeft
  | .shiftRight => some .shiftRight
  | _ => none

/-- Reads a comparison of sums of products of powers of primaries. -/
def relational (primary : Reader Tree) : Reader Tree :=
  chain relationalJoints (chain additiveJoints
    (chain multiplicativeJoints (chain powerJoints primary)))

-- ================================================================== rungs

/-- The deepest nesting of groups, calls, indexes and signs. -/
def maxDepth : Nat := 64

/-- The readers of one rung: for a primary, and for a comparison or the
negation of one. -/
structure Rung where
  primary : Reader Tree
  negation : Reader Tree

namespace Rung

/-- Reads a whole expression on a rung. -/
def expression (r : Rung) : Reader Tree := chain logicalJoints r.negation

/-- The reader on the floor, where no symbol may be nested further. -/
def tooDeep : Reader Tree
  | [] => .error ⟨.endOfExpression, none⟩
  | s :: _ => .error ⟨.nestedTooDeep maxDepth, some s.place⟩

/-- The rung below all others. -/
def floor : Rung := ⟨tooDeep, tooDeep⟩

/-- Reads the further items of a list, each behind a comma. -/
def itemsFrom (item : Reader Tree) (ss : List Symbol) :
    Except Halt (Parsed (List Tree) (ss.length + 1)) :=
  match ss with
  | [] => .ok ⟨[], [], by simp⟩
  | s :: ss =>
    if s.part = .comma then
      match item ss with
      | .error halt => .error halt
      | .ok first =>
        (itemsFrom item first.rest).map fun r =>
          (r.map (first.value :: ·)).weaken (by have := first.short; simp; omega)
    else .ok ⟨[], s :: ss, by simp⟩
termination_by ss.length
decreasing_by
  have := first.short
  simp
  omega

/-- Reads expressions separated by commas, at least one. -/
def items (below : Rung) : Reader (List Tree) := fun ss =>
  match below.expression ss with
  | .error halt => .error halt
  | .ok first =>
    (itemsFrom below.expression first.rest).map fun r =>
      (r.map (first.value :: ·)).weaken first.short

/-- Reads items up to a closing parenthesis. -/
def closedItems (below : Rung) : Reader (List Tree) := fun ss =>
  match below.items ss with
  | .error halt => .error halt
  | .ok r =>
    match expect .rightParen .missingParenthesis r.rest with
    | .error halt => .error halt
    | .ok close => .ok ⟨r.value, close.rest, Nat.lt_trans close.short r.short⟩

/-- Reads the arguments of a call behind its opening parenthesis. -/
def arguments (below : Rung) : Reader (List Tree)
  | [] => below.closedItems []
  | s :: ss => if s.part = .rightParen then .ok ⟨[], ss, by simp⟩ else below.closedItems (s :: ss)

/-- What a name is: a call if a parenthesis follows, else a variable. -/
def named (below : Rung) (name : Symbol) (ss : List Symbol) :
    Except Halt (Parsed Tree (ss.length + 1)) :=
  match ss with
  | [] => .ok ⟨.variable name.value.text name.place, [], by simp⟩
  | s :: ss =>
    if s.part = .leftParen then
      (below.arguments ss).map fun r =>
        (r.map fun args => .call name.value.text args name.place).weaken (by simp; omega)
    else .ok ⟨.variable name.value.text name.place, s :: ss, by simp⟩

/-- What parentheses around items are. -/
def grouped (place : Place) : List Tree → Tree
  | [t] => .group t
  | ts => .array ts place

/-- Reads the indexes in brackets behind a primary. -/
def indexed (below : Rung) (base : Tree) (ss : List Symbol) :
    Except Halt (Parsed Tree (ss.length + 1)) :=
  match ss with
  | [] => .ok ⟨base, [], by simp⟩
  | s :: ss =>
    if s.part = .leftBracket then
      match below.expression ss with
      | .error halt => .error halt
      | .ok index =>
        match expect .rightBracket .missingBracket index.rest with
        | .error halt => .error halt
        | .ok close =>
          (below.indexed (.dyadic (.plain .element) base index.value s.value.text s.place)
            close.rest).map
              (·.weaken (by have := index.short; have := close.short; simp; omega))
    else .ok ⟨base, s :: ss, by simp⟩
termination_by ss.length
decreasing_by
  have := index.short
  have := close.short
  simp
  omega

/-- Reads a literal, a name with what belongs to it, or a group. -/
def atom (below : Rung) (s : Symbol) (ss : List Symbol) :
    Except Halt (Parsed Tree (ss.length + 1)) :=
  match s.part with
  | .constant => .ok ⟨.constant s.value s.place, ss, by simp⟩
  | .null => .ok ⟨.constant .null s.place, ss, by simp⟩
  | .variable => below.named s ss
  | .leftParen =>
    (below.closedItems ss).map fun r => (r.map (grouped s.place)).weaken (by simp)
  | _ => .error ⟨.wrongOperand s.value.text, some s.place⟩

/-- Reads a primary: an atom with its indexes, or a sign and a primary. -/
def primaryAbove (below : Rung) : Reader Tree
  | [] => .error ⟨.endOfExpression, none⟩
  | s :: ss =>
    match s.part with
    | .plus => (below.primary ss).map fun r => (r.map .plus).weaken (by simp)
    | .minus =>
      (below.primary ss).map fun r =>
        (r.map fun t => .monadic (.plain .negative) t s.value.text s.place).weaken (by simp)
    | _ =>
      match below.atom s ss with
      | .error halt => .error halt
      | .ok base => (below.indexed base.value base.rest).map (·.weaken base.short)

/-- Reads `NOT` and what it negates, or a comparison. -/
def negationAbove (below : Rung) (primary : Reader Tree) : Reader Tree
  | [] => relational primary []
  | s :: ss =>
    if s.part = .not then
      (below.negation ss).map fun r =>
        (r.map fun t => .monadic (.plain .not) t s.value.text s.place).weaken (by simp)
    else relational primary (s :: ss)

/-- The rung from which one may descend to `below`. -/
def above (below : Rung) : Rung :=
  ⟨primaryAbove below, negationAbove below (primaryAbove below)⟩

/-- The rung from which one may descend `n` times. -/
def ofDepth : Nat → Rung
  | 0 => floor
  | n + 1 => above (ofDepth n)

end Rung

-- ============================================================ expressions

/-- A failure at the last symbol, where the end gave no place of its
own. -/
def Halt.fault (halt : Halt) (ss : List Symbol) : Fault :=
  .atPlace halt.cause ((halt.place.or (ss.getLast?.map Symbol.place)).getD .origin)

/-- The tree of a whole list of symbols. -/
def tree (ss : List Symbol) : Except Fault Tree :=
  match (Rung.ofDepth maxDepth).expression ss with
  | .error halt => .error (halt.fault ss)
  | .ok r =>
    match r.rest with
    | [] => .ok r.value
    | s :: _ => .error (.atPlace (.leftover s.value.text) s.place)

end Expr

end Formula
