/-
One way of converting values extending another: wherever the other one
gives a value, the first gives the same. All operations are built on the two
decisions of a coercion, and all but one pass their failures on, so that
they extend each other where the coercions do (`Extends.operations`). The
one is the search of a collection, which takes an item that cannot be
compared for one that is not looked for.

Main statement: the lenient coercion extends the strict one
(`lenient_extends_strict`).
-/
import Formula.Value.Operations

namespace Formula

-- =============================================================== results

section

variable {α β : Type} {x y : Except Fault α}

/-- What it is for a result to extend another: what the other one gives, it
gives too. Where the other one fails, it may be anything. -/
def Extends (y x : Except Fault α) : Prop := ∀ a, x = .ok a → y = .ok a

namespace Extends

theorem refl (x : Except Fault α) : Extends x x := fun _ h => h

/-- What is done with results extends what is done with others, if the
results do and what is done with them does. -/
theorem bind {f g : α → Except Fault β} (h : Extends y x) (hfg : ∀ a, Extends (g a) (f a)) :
    Extends (y >>= g) (x >>= f) := by
  intro b hb
  cases hx : x with
  | error fault =>
      rw [hx] at hb
      cases hb
  | ok a =>
      rw [hx] at hb
      rw [h a hx]
      exact hfg a b hb

theorem map (f : α → β) (h : Extends y x) : Extends (y.map f) (x.map f) := by
  intro b hb
  cases hx : x with
  | error fault =>
      rw [hx] at hb
      cases hb
  | ok a =>
      rw [hx] at hb
      rw [h a hx]
      exact hb

end Extends

end

-- ============================================================= coercions

namespace Coercion

/-- What it is for a coercion to extend another: it converts and brings
together whatever the other one does, in the same way. -/
structure Extends (l k : Coercion) : Prop where
  convert : ∀ v target, Formula.Extends (l.convert v target) (k.convert v target)
  meet : ∀ a b, Formula.Extends (l.meet a b) (k.meet a b)

/-- The lenient coercion converts what the strict one does, and in the same
way. -/
theorem convertLenient_extends (v : Value) (target : Value.Kind) :
    Formula.Extends (convertLenient v target) (convertStrict v target) := by
  intro w hw
  unfold convertStrict at hw
  unfold convertLenient
  split at hw
  · next hkind =>
    rw [if_pos hkind]
    exact hw
  · next hkind =>
    rw [if_neg hkind]
    split at hw
    · exact hw
    · exact hw
    · cases hw

/-- Where the right operand can take the kind of the left one, the strict
coercion and the lenient one both make it so. -/
theorem lenient_extends_strict : lenient.Extends strict where
  convert := convertLenient_extends
  meet left right := by
    intro met hmet
    cases hright : convertStrict right left.kind with
    | error fault =>
        change (convertStrict right left.kind).map _ = _ at hmet
        rw [hright] at hmet
        cases hmet
    | ok r =>
        change (convertStrict right left.kind).map _ = _ at hmet
        rw [hright] at hmet
        unfold lenient
        dsimp only
        rw [convertLenient_extends right left.kind r hright]
        exact hmet

-- ============================================================ arithmetic

namespace Extends

variable {k l : Coercion} (h : l.Extends k)

include h

theorem arithmetic (scaled : Scaled → Scaled → Option Scaled) (floats : Float → Float → Float)
    (common : Value → Value → Outcome) (a b : Value) :
    Formula.Extends (l.arithmetic scaled floats common a b)
      (k.arithmetic scaled floats common a b) := by
  unfold Coercion.arithmetic
  cases a.isNull || b.isNull with
  | true => exact .refl _
  | false =>
      cases mixed? scaled floats a b with
      | some v => exact .refl _
      | none => exact (h.meet a b).bind fun _ => .refl _

theorem power (a b : Value) : Formula.Extends (l.power a b) (k.power a b) := by
  unfold Coercion.power
  cases a.isNull || b.isNull with
  | true => exact .refl _
  | false =>
      cases a.isNumber && b.isNumber with
      | true => exact .refl _
      | false => exact (h.meet a b).bind fun _ => .refl _

theorem shift (operation : String) (move : Int64 → Nat → Option Int64) (a b : Value) :
    Formula.Extends (l.shift operation move a b) (k.shift operation move a b) := by
  unfold Coercion.shift
  cases a.isNull || b.isNull with
  | true => exact .refl _
  | false => exact (h.convert a _).bind fun _ => (h.convert b _).bind fun _ => .refl _

theorem logic (operation : String) (truths : Bool → Bool → Bool) (bits : Int64 → Int64 → Int64)
    (a b : Value) :
    Formula.Extends (l.logic operation truths bits a b) (k.logic operation truths bits a b) := by
  -- nothing is converted where one operand is null or both are integers
  cases a with
  | null => exact .refl _
  | integer n =>
      cases b with
      | null => exact .refl _
      | integer m => exact .refl _
      | _ => exact (h.convert _ _).bind fun _ => (h.convert _ _).bind fun _ => .refl _
  | _ =>
      cases b with
      | null => exact .refl _
      | _ => exact (h.convert _ _).bind fun _ => (h.convert _ _).bind fun _ => .refl _

theorem not (v : Value) : Formula.Extends (l.not v) (k.not v) := by
  cases v with
  | null => exact .refl _
  | boolean b => exact .refl _
  | integer n => exact .refl _
  | _ => exact (h.convert _ _).bind fun _ => .refl _

-- ============================================================ comparison

theorem order (a b : Value) : Formula.Extends (l.order a b) (k.order a b) := by
  -- null and numbers do not have to meet
  cases a with
  | null => exact .refl _
  | integer n =>
      cases b with
      | null => exact .refl _
      | integer m => exact .refl _
      | float y => exact .refl _
      | _ => exact (h.meet _ _).bind fun _ => .refl _
  | float x =>
      cases b with
      | null => exact .refl _
      | integer m => exact .refl _
      | float y => exact .refl _
      | _ => exact (h.meet _ _).bind fun _ => .refl _
  | _ =>
      cases b with
      | null => exact .refl _
      | _ => exact (h.meet _ _).bind fun _ => .refl _

theorem equals (a b : Value) : Formula.Extends (l.equals a b) (k.equals a b) := by
  have hnumbers : Formula.Extends ((l.order a b).map (· == some .eq))
      ((k.order a b).map (· == some .eq)) := (h.order a b).map _
  cases a with
  | null => cases b <;> exact .refl _
  | integer n =>
      cases b with
      | null => exact .refl _
      | integer m => exact hnumbers
      | float y => exact hnumbers
      | _ => exact (h.meet _ _).bind fun _ => .refl _
  | float x =>
      cases b with
      | null => exact .refl _
      | integer m => exact hnumbers
      | float y => exact hnumbers
      | _ => exact (h.meet _ _).bind fun _ => .refl _
  | _ =>
      cases b with
      | null => exact .refl _
      | _ => exact (h.meet _ _).bind fun _ => .refl _

-- =========================================================== collections

theorem asText (v : Value) : Formula.Extends (l.asText v) (k.asText v) := (h.convert v _).map _

theorem element (container index : Value) :
    Formula.Extends (l.element container index) (k.element container index) := by
  cases container with
  | array items => exact (h.convert index _).bind fun _ => .refl _
  | string s => exact (h.convert index _).bind fun _ => .refl _
  | object fields => exact (h.asText index).bind fun _ => .refl _
  | _ => exact .refl _

theorem like (value pattern : Value) :
    Formula.Extends (l.like value pattern) (k.like value pattern) := by
  unfold Coercion.like likeWith
  cases value.isNull || pattern.isNull with
  | true => exact .refl _
  | false => exact (h.asText value).bind fun _ => (h.asText pattern).bind fun _ => .refl _

end Extends

end Coercion

-- ============================================================ operations

/-- What it is for operations to extend others, the search of collections
left aside. -/
structure Operations.Extends (q p : Operations) : Prop where
  convert : ∀ v target, Formula.Extends (q.convert v target) (p.convert v target)
  unary : ∀ op v, Formula.Extends (q.unary op v) (p.unary op v)
  binary : ∀ op a b, op ≠ .isIn → Formula.Extends (q.binary op a b) (p.binary op a b)

/-- Operations extend others where the coercions they are built on do. -/
theorem Coercion.Extends.operations {k l : Coercion} (h : l.Extends k) :
    l.operations.Extends k.operations where
  convert := h.convert
  unary op v := by
    cases op with
    | negative => exact .refl _
    | not => exact h.not v
    | isNull => exact .refl _
  binary op a b hop := by
    cases op with
    | add =>
        show Formula.Extends (l.add a b) (k.add a b)
        exact h.arithmetic _ _ _ a b
    | subtract =>
        show Formula.Extends (l.subtract a b) (k.subtract a b)
        exact h.arithmetic _ _ _ a b
    | multiply =>
        show Formula.Extends (l.multiply a b) (k.multiply a b)
        exact h.arithmetic _ _ _ a b
    | divide =>
        show Formula.Extends (l.divide a b) (k.divide a b)
        exact h.arithmetic _ _ _ a b
    | remainder =>
        show Formula.Extends (l.remainder a b) (k.remainder a b)
        exact h.arithmetic _ _ _ a b
    | power => exact h.power a b
    | shiftLeft | shiftRight => exact h.shift _ _ a b
    | and | or | xor => exact h.logic _ _ _ a b
    | equal | notEqual => exact (h.equals a b).map _
    | more | less | moreEqual | lessEqual => exact (h.order a b).map _
    | isIn => exact absurd rfl hop
    | like => exact h.like a b
    | element => exact h.element a b

/-- The search of an array does not pass failures on: that an integer cannot
be compared with a text is no answer to the strict coercion, and the lenient
one finds them equal. -/
example : Coercion.strict.holds (.integer 1) (.array [.string "1"]) = .ok false
    ∧ Coercion.lenient.holds (.integer 1) (.array [.string "1"]) = .ok true := by
  exact ⟨rfl, rfl⟩

end Formula
