/-
Expressions that are written differently and yet are alike. A `Likeness` says
which texts and which places stand for each other. Two symbols are alike if
they play the same part, are the same value where they are constants, and if
their texts and places stand for each other.

Readers decide by parts, and by nothing else: texts and places go into what they
build and into their failures, and are never looked at. So readers take alike
symbols for alike trees and stop at them alike. This is shown for one reader
after the other, each from those it calls, and for those that repeat by their own
recursion, with the symbols left as the invariant: what is left is alike again.

Main statements: the readers of every rung take alike symbols alike
(`Rung.congruent_ofDepth`), and so what is compiled from them is alike
(`concur_ofTokens`).
-/
import Mathlib.Data.List.Forall2
import Formula.Proofs.Expr.History
import Formula.Proofs.Expr.Joints

namespace Formula

-- ================================================================ results

section

variable {ε δ α β α' β' : Type} {E : ε → δ → Prop} {A : α → β → Prop} {B : α' → β' → Prop}

/-- What it is for two results to concur: both are failures, related in one
way, or both are values, related in another way. -/
inductive Concur (E : ε → δ → Prop) (A : α → β → Prop) : Except ε α → Except δ β → Prop
  | error {e : ε} {d : δ} : E e d → Concur E A (.error e) (.error d)
  | ok {a : α} {b : β} : A a b → Concur E A (.ok a) (.ok b)

namespace Concur

variable {x : Except ε α} {y : Except δ β}

theorem refl {E : ε → ε → Prop} {A : α → α → Prop} (herror : ∀ e, E e e) (hok : ∀ a, A a a)
    (x : Except ε α) : Concur E A x x := by
  cases x with
  | error e => exact .error (herror e)
  | ok a => exact .ok (hok a)

/-- What holds of related failures and of related values holds of results that
concur. -/
@[elab_as_elim]
theorem elim {P : Except ε α → Except δ β → Prop} (h : Concur E A x y)
    (error : ∀ {e d}, E e d → P (.error e) (.error d)) (ok : ∀ {a b}, A a b → P (.ok a) (.ok b)) :
    P x y := by
  cases h with
  | error he => exact error he
  | ok ha => exact ok ha

theorem bind {f : α → Except ε α'} {g : β → Except δ β'} (h : Concur E A x y)
    (hfg : ∀ {a b}, A a b → Concur E B (f a) (g b)) : Concur E B (x >>= f) (y >>= g) := by
  cases h with
  | error he => exact .error he
  | ok ha => exact hfg ha

theorem map {f : α → α'} {g : β → β'} (h : Concur E A x y)
    (hfg : ∀ {a b}, A a b → B (f a) (g b)) : Concur E B (x.map f) (y.map g) := by
  cases h with
  | error he => exact .error he
  | ok ha => exact .ok (hfg ha)

/-- Results concur in all that follows from what they concur in. -/
theorem imp {D : ε → δ → Prop} {B : α → β → Prop} (h : Concur E A x y)
    (herror : ∀ {e d}, E e d → D e d) (hok : ∀ {a b}, A a b → B a b) : Concur D B x y := by
  cases h with
  | error he => exact .error (herror he)
  | ok ha => exact .ok (hok ha)

end Concur

end

namespace Expr

/-- What a token means depends on its kind and its text. -/
theorem classify_congr {t u : Token} (hkind : t.kind = u.kind) (htext : t.text = u.text) :
    classify t = classify u := by
  unfold classify
  rw [hkind, htext]

/-- Words and keywords are looked up alike. -/
theorem classify_of_word {t : Token} (h : t.kind = .word ∨ t.kind = .keyword) :
    classify t = .ok (some (ofWord t.text)) := by
  unfold classify
  rcases h with hkind | hkind
  · rw [hkind]
  · rw [hkind]

-- =============================================================== likeness

/-- Which texts and which places stand for each other. All stand for
themselves. -/
structure Likeness where
  text : String → String → Prop
  place : Place → Place → Prop
  text_refl : ∀ s, text s s
  place_refl : ∀ p, place p p

namespace Likeness

variable (L : Likeness)

/-- Parts and values that are alike. -/
structure Contents (c d : Part × Value) : Prop where
  part : c.1 = d.1
  value : c.1 = .constant → c.2 = d.2
  text : L.text c.2.text d.2.text

/-- Symbols that are alike. -/
structure Symbols (s s' : Symbol) : Prop where
  content : L.Contents (s.part, s.value) (s'.part, s'.value)
  place : L.place s.place s'.place

/-- Causes that differ in the text they tell of at most. -/
inductive Causes : Cause → Cause → Prop
  | same (c : Cause) : Causes c c
  | wrongOperand {s t : String} : L.text s t → Causes (.wrongOperand s) (.wrongOperand t)
  | leftover {s t : String} : L.text s t → Causes (.leftover s) (.leftover t)

/-- Failures of readers that are alike. -/
structure Halts (h h' : Halt) : Prop where
  cause : L.Causes h.cause h'.cause
  place : Option.Rel L.place h.place h'.place

/-- Faults that are alike. -/
inductive Faults : Fault → Fault → Prop
  | atPlace {c d : Cause} {p q : Place} : L.Causes c d → L.place p q →
      Faults (.atPlace c p) (.atPlace d q)

/-- Steps that are alike: they do the same with names that stand for each
other. -/
inductive Steps : Step → Step → Prop
  | constant (v : Value) : Steps (.constant v) (.constant v)
  | variable {m n : String} : L.text m n → Steps (.variable m) (.variable n)
  | function {m n : String} : L.text m n → Steps (.function m) (.function n)
  | array : Steps .array .array
  | monadic (op : Monadic) {s t : String} : L.text s t → Steps (.monadic op s) (.monadic op t)
  | dyadic (op : Dyadic) {s t : String} : L.text s t → Steps (.dyadic op s) (.dyadic op t)

/-- Instructions that are alike. -/
structure Instructions (i j : Instruction) : Prop where
  step : L.Steps i.step j.step
  place : L.place i.place j.place

/-- Trees that are alike: their codes are, instruction by instruction. -/
def Trees (t u : Tree) : Prop := List.Forall₂ L.Instructions t.code u.code

/-- What was read from alike symbols, and left alike symbols. -/
structure Reads {α : Type} {n m : Nat} (A : α → α → Prop) (r : Parsed α n) (r' : Parsed α m) :
    Prop where
  value : A r.value r'.value
  rest : List.Forall₂ L.Symbols r.rest r'.rest

/-- What it is for a reader to take alike symbols alike. -/
def Congruent {α : Type} (A : α → α → Prop) (read : Reader α) : Prop :=
  ∀ ⦃ss ss' : List Symbol⦄, List.Forall₂ L.Symbols ss ss' →
    Concur L.Halts (L.Reads A) (read ss) (read ss')

variable {L}

theorem Symbols.part {s s' : Symbol} (h : L.Symbols s s') : s.part = s'.part := h.content.part

theorem Symbols.text {s s' : Symbol} (h : L.Symbols s s') : L.text s.value.text s'.value.text :=
  h.content.text

/-- Alike symbols play the same parts. -/
theorem map_part {ss ss' : List Symbol} (h : List.Forall₂ L.Symbols ss ss') :
    ss.map Symbol.part = ss'.map Symbol.part := by
  induction h with
  | nil => rfl
  | cons hs _ ih => rw [List.map_cons, List.map_cons, hs.part, ih]

-- ================================================================== trees

namespace Trees

variable {p q : Place} {s t : String} {ts us : List Tree} {l l' r r' : Tree}

theorem constant (v : Value) (h : L.place p q) : L.Trees (.constant v p) (.constant v q) :=
  .cons ⟨.constant v, h⟩ .nil

theorem «variable» (hn : L.text s t) (h : L.place p q) :
    L.Trees (.variable s p) (.variable t q) :=
  .cons ⟨.variable hn, h⟩ .nil

/-- The codes of several alike trees are alike. -/
theorem codeAll (h : List.Forall₂ L.Trees ts us) :
    List.Forall₂ L.Instructions (Tree.codeAll ts) (Tree.codeAll us) := by
  induction h with
  | nil => exact .nil
  | cons ht _ ih => exact List.rel_append ht ih

/-- Several alike trees are as many. -/
theorem countAt (h : List.Forall₂ L.Trees ts us) (hp : L.place p q) :
    L.Instructions (Tree.countAt ts p) (Tree.countAt us q) := by
  refine ⟨?_, hp⟩
  unfold Tree.countAt
  rw [h.length_eq]
  exact .constant _

theorem call (hn : L.text s t) (h : List.Forall₂ L.Trees ts us) (hp : L.place p q) :
    L.Trees (.call s ts p) (.call t us q) := by
  unfold Trees
  rw [Tree.code, Tree.code]
  exact List.rel_append (codeAll h) (.cons (countAt h hp) (.cons ⟨.function hn, hp⟩ .nil))

theorem group (h : L.Trees l l') : L.Trees (.group l) (.group l') := h

theorem array (h : List.Forall₂ L.Trees ts us) (hp : L.place p q) :
    L.Trees (.array ts p) (.array us q) := by
  unfold Trees
  rw [Tree.code, Tree.code]
  exact List.rel_append (codeAll h) (.cons (countAt h hp) (.cons ⟨.array, hp⟩ .nil))

theorem plus (h : L.Trees l l') : L.Trees (.plus l) (.plus l') := h

theorem monadic (op : Monadic) (h : L.Trees l l') (ht : L.text s t) (hp : L.place p q) :
    L.Trees (.monadic op l s p) (.monadic op l' t q) := by
  unfold Trees
  rw [Tree.code, Tree.code]
  exact List.rel_append h (.cons ⟨.monadic op ht, hp⟩ .nil)

theorem dyadic (op : Dyadic) (hl : L.Trees l l') (hr : L.Trees r r') (ht : L.text s t)
    (hp : L.place p q) : L.Trees (.dyadic op l r s p) (.dyadic op l' r' t q) := by
  unfold Trees
  rw [Tree.code, Tree.code]
  exact List.rel_append (List.rel_append hl hr) (.cons ⟨.dyadic op ht, hp⟩ .nil)

/-- Parentheses around alike items make alike trees: one item is a group on
both sides, or on neither. -/
theorem grouped (h : List.Forall₂ L.Trees ts us) (hp : L.place p q) :
    L.Trees (Rung.grouped p ts) (Rung.grouped q us) := by
  cases h with
  | nil => exact array .nil hp
  | cons ht hts =>
      cases hts with
      | nil => exact group ht
      | cons hu hus => exact array (.cons ht (.cons hu hus)) hp

end Trees

-- ================================================================ reading

section

variable {α β : Type} {A : α → α → Prop} {B : β → β → Prop}

/-- Allowing for more symbols changes nothing that is read. -/
theorem concur_weaken {n m n' m' : Nat} {x : Except Halt (Parsed α n)}
    {y : Except Halt (Parsed α m)} (h : Concur L.Halts (L.Reads A) x y) (hn : n ≤ n')
    (hm : m ≤ m') :
    Concur L.Halts (L.Reads A) (x.map (·.weaken hn)) (y.map (·.weaken hm)) :=
  h.map fun hread => ⟨hread.value, hread.rest⟩

/-- What is made of what is read alike is alike, if what it is made into is. -/
theorem concur_map_weaken {n m n' m' : Nat} {x : Except Halt (Parsed α n)}
    {y : Except Halt (Parsed α m)} {f g : α → β} (h : Concur L.Halts (L.Reads A) x y)
    (hfg : ∀ {a b}, A a b → B (f a) (g b)) (hn : n ≤ n') (hm : m ≤ m') :
    Concur L.Halts (L.Reads B) (x.map fun r => (r.map f).weaken hn)
      (y.map fun r => (r.map g).weaken hm) :=
  h.map fun hread => ⟨hfg hread.value, hread.rest⟩

/-- A failure at a symbol. -/
theorem Halts.at (c : Cause) {p q : Place} (h : L.place p q) : L.Halts ⟨c, some p⟩ ⟨c, some q⟩ :=
  ⟨.same c, .some h⟩

/-- A failure at the end. -/
theorem Halts.end (c : Cause) : L.Halts ⟨c, none⟩ ⟨c, none⟩ := ⟨.same c, .none⟩

/-- Whether a symbol is the one expected depends on its part. -/
theorem congruent_expect (part : Part) (cause : Cause) : L.Congruent Eq (expect part cause) := by
  intro ss ss' h
  cases h with
  | nil => exact .error (.end cause)
  | @cons s s' ss ss' hs hss =>
      delta expect
      dsimp only
      rw [← hs.part]
      by_cases hpart : s.part = part
      · rw [if_pos hpart, if_pos hpart]
        exact .ok ⟨rfl, hss⟩
      · rw [if_neg hpart, if_neg hpart]
        exact .error (.at cause hs.place)

end

-- ================================================================= chains

section

variable {k : Level} {operand : Reader Tree} {left left' : Tree} {ss ss' : List Symbol}

/-- Alike symbols begin the same operators. -/
theorem joints_congr {s s' : Symbol} (hs : L.Symbols s s') (h : List.Forall₂ L.Symbols ss ss') :
    k.joints s' ss' = k.joints s ss := by
  rw [Level.joints_eq_find, Level.joints_eq_find, List.map_cons, List.map_cons, hs.part,
    map_part h]

/-- Alike operands are continued alike: what is joined to them is as long and
leaves alike symbols. -/
theorem concur_chainFrom (hop : L.Congruent L.Trees operand) (hleft : L.Trees left left')
    (h : List.Forall₂ L.Symbols ss ss') :
    Concur L.Halts (L.Reads L.Trees) (chainFrom k.joints operand left ss)
      (chainFrom k.joints operand left' ss') := by
  -- a reader repeats on fewer symbols, so the induction is on a bound for them
  obtain ⟨n, hn⟩ : ∃ n, ss.length < n := ⟨_, Nat.lt_succ_self _⟩
  induction n generalizing left left' ss ss' with
  | zero => exact absurd hn (Nat.not_lt_zero _)
  | succ n ih =>
      cases h with
      | nil =>
          rw [chainFrom, chainFrom]
          exact .ok ⟨hleft, .nil⟩
      | @cons s s' ss ss' hs hss =>
          rw [List.length_cons] at hn
          rw [chainFrom, chainFrom, joints_congr hs hss]
          -- both sides have found the same operator, or none
          cases k.joints s ss with
          | none => exact .ok ⟨hleft, .cons hs hss⟩
          | some found =>
              obtain ⟨joint, count⟩ := found
              have hdrop := List.forall₂_drop count hss
              have hshort : (ss.drop count).length < n := by
                rw [List.length_drop]
                omega
              cases joint with
              | behind op =>
                  have hmore := ih (.monadic op hleft hs.text hs.place) hdrop hshort
                  exact concur_weaken hmore _ _
              | between op =>
                  dsimp only
                  refine (hop hdrop).elim (fun hhalts => .error hhalts) fun {right _} hright => ?_
                  have hmore := ih (.dyadic op hleft hright.value hs.text hs.place) hright.rest
                    (Nat.lt_trans right.short hshort)
                  exact concur_weaken hmore _ _

/-- A chain of operands that are taken alike is taken alike. -/
theorem congruent_chain (hop : L.Congruent L.Trees operand) :
    L.Congruent L.Trees (chain k.joints operand) := by
  intro ss ss' h
  unfold chain
  refine (hop h).elim (fun hhalts => .error hhalts) fun hfirst => ?_
  exact concur_weaken (concur_chainFrom hop hfirst.value hfirst.rest) _ _

theorem congruent_relational {primary : Reader Tree} (h : L.Congruent L.Trees primary) :
    L.Congruent L.Trees (relational primary) :=
  congruent_chain (k := .relational) (congruent_chain (k := .additive)
    (congruent_chain (k := .multiplicative) (congruent_chain (k := .power) h)))

end

end Likeness

namespace Rung

open Likeness

variable {L : Likeness} {below : Rung} {item : Reader Tree} {ss ss' : List Symbol}

-- ================================================================== lists

/-- Further items are taken alike. -/
theorem concur_itemsFrom (hitem : L.Congruent L.Trees item) (h : List.Forall₂ L.Symbols ss ss') :
    Concur L.Halts (L.Reads (List.Forall₂ L.Trees)) (itemsFrom item ss) (itemsFrom item ss') := by
  obtain ⟨n, hn⟩ : ∃ n, ss.length < n := ⟨_, Nat.lt_succ_self _⟩
  induction n generalizing ss ss' with
  | zero => exact absurd hn (Nat.not_lt_zero _)
  | succ n ih =>
      cases h with
      | nil =>
          rw [itemsFrom]
          exact .ok ⟨.nil, .nil⟩
      | @cons s s' ss ss' hs hss =>
          rw [List.length_cons] at hn
          unfold itemsFrom
          rw [← hs.part]
          by_cases hcomma : s.part = .comma
          · rw [if_pos hcomma, if_pos hcomma]
            refine (hitem hss).elim (fun hhalts => .error hhalts) fun {first _} hfirst => ?_
            have hshort : first.rest.length < n := by
              have := first.short
              omega
            exact concur_map_weaken (ih hfirst.rest hshort) (.cons hfirst.value) _ _
          · rw [if_neg hcomma, if_neg hcomma]
            exact .ok ⟨.nil, .cons hs hss⟩

/-- What it is for the readers of a rung to take alike symbols alike. -/
structure Congruent (L : Likeness) (r : Rung) : Prop where
  primary : L.Congruent L.Trees r.primary
  negation : L.Congruent L.Trees r.negation

theorem Congruent.expression (h : below.Congruent L) : L.Congruent L.Trees below.expression :=
  congruent_chain (k := .logical) h.negation

theorem congruent_items (hbelow : below.Congruent L) :
    L.Congruent (List.Forall₂ L.Trees) below.items := by
  intro ss ss' h
  unfold items
  refine (hbelow.expression h).elim (fun hhalts => .error hhalts) fun hfirst => ?_
  have hmore := concur_itemsFrom hbelow.expression hfirst.rest
  exact concur_map_weaken hmore (.cons hfirst.value) _ _

theorem congruent_closedItems (hbelow : below.Congruent L) :
    L.Congruent (List.Forall₂ L.Trees) below.closedItems := by
  intro ss ss' h
  unfold closedItems
  refine (congruent_items hbelow h).elim (fun hhalts => .error hhalts) fun hitems => ?_
  dsimp only
  have hclose := congruent_expect .rightParen .missingParenthesis hitems.rest
  refine hclose.elim (fun hhalts => .error hhalts) fun hrest => ?_
  exact .ok ⟨hitems.value, hrest.rest⟩

-- ================================================================== atoms

theorem congruent_arguments (hbelow : below.Congruent L) :
    L.Congruent (List.Forall₂ L.Trees) below.arguments := by
  intro ss ss' h
  cases h with
  | nil => exact congruent_closedItems hbelow .nil
  | @cons s s' ss ss' hs hss =>
      delta arguments
      dsimp only
      rw [← hs.part]
      by_cases hclose : s.part = .rightParen
      · rw [if_pos hclose, if_pos hclose]
        exact .ok ⟨.nil, hss⟩
      · rw [if_neg hclose, if_neg hclose]
        exact congruent_closedItems hbelow (.cons hs hss)

/-- Alike names are taken alike: as calls if a parenthesis follows. -/
theorem concur_named (hbelow : below.Congruent L) {name name' : Symbol}
    (hname : L.Symbols name name') (h : List.Forall₂ L.Symbols ss ss') :
    Concur L.Halts (L.Reads L.Trees) (below.named name ss) (below.named name' ss') := by
  have hvariable : L.Trees (.variable name.value.text name.place)
      (.variable name'.value.text name'.place) := .variable hname.text hname.place
  cases h with
  | nil => exact .ok ⟨hvariable, .nil⟩
  | @cons s s' ss ss' hs hss =>
      delta named
      dsimp only
      rw [← hs.part]
      by_cases hopen : s.part = .leftParen
      · rw [if_pos hopen, if_pos hopen]
        have hargs := congruent_arguments hbelow hss
        exact concur_map_weaken hargs (fun hargs => .call hname.text hargs hname.place) _ _
      · rw [if_neg hopen, if_neg hopen]
        exact .ok ⟨hvariable, .cons hs hss⟩

/-- Atoms that begin with alike symbols are taken alike. -/
theorem concur_atom (hbelow : below.Congruent L) {s s' : Symbol} (hs : L.Symbols s s')
    (h : List.Forall₂ L.Symbols ss ss') :
    Concur L.Halts (L.Reads L.Trees) (below.atom s ss) (below.atom s' ss') := by
  have hother : L.Halts ⟨.wrongOperand s.value.text, some s.place⟩
      ⟨.wrongOperand s'.value.text, some s'.place⟩ := ⟨.wrongOperand hs.text, .some hs.place⟩
  unfold atom
  rw [← hs.part]
  cases hpart : s.part with
  | constant =>
      have hvalue : s.value = s'.value := hs.content.value hpart
      rw [hvalue]
      exact .ok ⟨.constant s'.value hs.place, h⟩
  | null => exact .ok ⟨.constant .null hs.place, h⟩
  | «variable» => exact concur_named hbelow hs h
  | leftParen =>
      have hitems := congruent_closedItems hbelow h
      exact concur_map_weaken hitems (fun hitems => .grouped hitems hs.place) _ _
  | _ => exact .error hother

-- ============================================================== primaries

/-- Alike bases are indexed alike. -/
theorem concur_indexed (hbelow : below.Congruent L) {base base' : Tree}
    (hbase : L.Trees base base') (h : List.Forall₂ L.Symbols ss ss') :
    Concur L.Halts (L.Reads L.Trees) (below.indexed base ss) (below.indexed base' ss') := by
  obtain ⟨n, hn⟩ : ∃ n, ss.length < n := ⟨_, Nat.lt_succ_self _⟩
  induction n generalizing base base' ss ss' with
  | zero => exact absurd hn (Nat.not_lt_zero _)
  | succ n ih =>
      cases h with
      | nil =>
          rw [indexed, indexed]
          exact .ok ⟨hbase, .nil⟩
      | @cons s s' ss ss' hs hss =>
          rw [List.length_cons] at hn
          rw [indexed, indexed, ← hs.part]
          by_cases hopen : s.part = .leftBracket
          · rw [if_pos hopen, if_pos hopen]
            refine (hbelow.expression hss).elim (fun hhalts => .error hhalts)
              fun {index _} hindex => ?_
            dsimp only
            have hclose := congruent_expect .rightBracket .missingBracket hindex.rest
            refine hclose.elim (fun hhalts => .error hhalts) fun {close _} hrest => ?_
            have hshort : close.rest.length < n := by
              have := index.short
              have := close.short
              omega
            have hmore := ih (.dyadic (.plain .element) hbase hindex.value hs.text hs.place)
              hrest.rest hshort
            exact concur_weaken hmore _ _
          · rw [if_neg hopen, if_neg hopen]
            exact .ok ⟨hbase, .cons hs hss⟩

theorem congruent_primaryAbove (hbelow : below.Congruent L) :
    L.Congruent L.Trees (primaryAbove below) := by
  intro ss ss' h
  cases h with
  | nil => exact .error (.end .endOfExpression)
  | @cons s s' ss ss' hs hss =>
      delta primaryAbove
      dsimp only
      rw [← hs.part]
      cases hpart : s.part with
      | plus => exact concur_map_weaken (hbelow.primary hss) (fun ht => .plus ht) _ _
      | minus =>
          have hsigned := hbelow.primary hss
          exact concur_map_weaken hsigned (fun ht => .monadic _ ht hs.text hs.place) _ _
      | _ =>
          refine (concur_atom hbelow hs hss).elim (fun hhalts => .error hhalts) fun hbase => ?_
          exact concur_weaken (concur_indexed hbelow hbase.value hbase.rest) _ _

theorem congruent_negationAbove (hbelow : below.Congruent L) {primary : Reader Tree}
    (hprimary : L.Congruent L.Trees primary) :
    L.Congruent L.Trees (negationAbove below primary) := by
  intro ss ss' h
  cases h with
  | nil => exact congruent_relational hprimary .nil
  | @cons s s' ss ss' hs hss =>
      delta negationAbove
      dsimp only
      rw [← hs.part]
      by_cases hnot : s.part = .not
      · rw [if_pos hnot, if_pos hnot]
        have hinner := hbelow.negation hss
        exact concur_map_weaken hinner (fun ht => .monadic _ ht hs.text hs.place) _ _
      · rw [if_neg hnot, if_neg hnot]
        exact congruent_relational hprimary (.cons hs hss)

-- ================================================================== rungs

theorem congruent_tooDeep : L.Congruent L.Trees tooDeep := by
  intro ss ss' h
  cases h with
  | nil => exact .error (.end .endOfExpression)
  | cons hs _ => exact .error (.at (.nestedTooDeep maxDepth) hs.place)

/-- The readers of every rung take alike symbols alike. -/
theorem congruent_ofDepth (n : Nat) : (ofDepth n).Congruent L := by
  induction n with
  | zero => exact ⟨congruent_tooDeep, congruent_tooDeep⟩
  | succ n ih =>
      have hprimary : L.Congruent L.Trees (primaryAbove (ofDepth n)) := congruent_primaryAbove ih
      exact ⟨hprimary, congruent_negationAbove ih hprimary⟩

end Rung

namespace Likeness

variable {L : Likeness}

-- ================================================================== whole expressions

/-- The last of alike symbols are at places that stand for each other. -/
theorem rel_getLast? {ss ss' : List Symbol} (h : List.Forall₂ L.Symbols ss ss') :
    Option.Rel L.place (ss.getLast?.map Symbol.place) (ss'.getLast?.map Symbol.place) := by
  induction h with
  | nil => exact .none
  | @cons s s' ss ss' hs hss ih =>
      cases hss with
      | nil => exact .some hs.place
      | cons _ _ => exact ih

/-- Alike failures are reported as alike faults. -/
theorem faults_of_halts {h h' : Halt} (hh : L.Halts h h') {ss ss' : List Symbol}
    (hss : List.Forall₂ L.Symbols ss ss') : L.Faults (h.fault ss) (h'.fault ss') := by
  refine .atPlace hh.cause ?_
  have hlast := rel_getLast? hss
  generalize ss.getLast?.map Symbol.place = last at hlast
  generalize ss'.getLast?.map Symbol.place = last' at hlast
  have hplace := hh.place
  generalize h.place = place at hplace
  generalize h'.place = place' at hplace
  cases hplace with
  | some hp => exact hp
  | none =>
      cases hlast with
      | some hp => exact hp
      | none => exact L.place_refl .origin

/-- Alike symbols are alike expressions. -/
theorem concur_tree {ss ss' : List Symbol} (h : List.Forall₂ L.Symbols ss ss') :
    Concur L.Faults L.Trees (tree ss) (tree ss') := by
  unfold tree
  refine ((Rung.congruent_ofDepth maxDepth).expression h).elim
    (fun hhalts => .error (faults_of_halts hhalts h)) fun {r r'} hread => ?_
  have hrest := hread.rest
  dsimp only
  generalize r.rest = rest at hrest
  generalize r'.rest = rest' at hrest
  cases hrest with
  | nil => exact .ok hread.value
  | cons hs _ => exact .error (.atPlace (.leftover hs.text) hs.place)

-- ================================================================= tokens

/-- Tokens that are alike: what they mean is. -/
structure Tokens (L : Likeness) (t u : Token) : Prop where
  content : Concur Eq (Option.Rel L.Contents) (classify t) (classify u)
  place : L.place t.place u.place

/-- A part and a value are alike with themselves. -/
theorem Contents.refl (c : Part × Value) : L.Contents c c := ⟨rfl, fun _ => rfl, L.text_refl _⟩

/-- Tokens that mean the same are alike if their places are. -/
theorem Tokens.of_classify {t u : Token} (h : classify t = classify u)
    (hplace : L.place t.place u.place) : L.Tokens t u := by
  refine ⟨?_, hplace⟩
  rw [h]
  cases classify u with
  | error cause => exact .error rfl
  | ok meaning =>
      cases meaning with
      | none => exact .ok .none
      | some content => exact .ok (.some (.refl content))

/-- Alike tokens spell alike symbols. -/
theorem concur_symbols {ts us : List Token} (h : List.Forall₂ L.Tokens ts us) :
    Concur L.Faults (List.Forall₂ L.Symbols) (symbols ts) (symbols us) := by
  induction h with
  | nil => exact .ok .nil
  | @cons t u ts us ht _ ih =>
      rw [symbols, symbols]
      refine ht.content.elim (fun hcause => ?_) fun hmeaning => ?_
      · cases hcause
        exact .error (.atPlace (.same _) ht.place)
      · cases hmeaning with
        | none => exact ih
        | some hcontents => exact ih.map fun hss => .cons ⟨hcontents, ht.place⟩ hss

/-- What is compiled from tokens that spell alike symbols is alike. -/
theorem concur_ofTokens {ts us : List Token}
    (h : Concur L.Faults (List.Forall₂ L.Symbols) (symbols ts) (symbols us)) :
    Concur L.Faults (fun c d => List.Forall₂ L.Instructions c.code d.code
        ∧ c.names = variableNames c.code ∧ d.names = variableNames d.code)
      (Compiled.ofTokens ts) (Compiled.ofTokens us) :=
  h.bind fun hss => (concur_tree hss).bind fun htree => .ok ⟨htree, rfl, rfl⟩

end Likeness

/-- What is kept of attempts to compile that concur: both failures, or both of
what was compiled. -/
theorem Compiled.kept_cases {E : Fault → Fault → Prop} {A : Compiled → Compiled → Prop}
    {x y : Except Fault Compiled} (h : Concur E A x y) :
    (∃ f g, (kept x).1 = some f ∧ (kept y).1 = some g ∧ E f g)
      ∨ ((kept x).1 = none ∧ (kept y).1 = none ∧ A (kept x).2 (kept y).2) := by
  cases h with
  | @error f g hfault => exact .inl ⟨f, g, rfl, rfl, hfault⟩
  | ok hcompiled => exact .inr ⟨rfl, rfl, hcompiled⟩

end Expr

end Formula
