/-
How a parser gets on, symbol by symbol, against the readers. An action of a
parser follows a reader (`Follows`) if it fails where the reader does and
with the same fault, and else goes on to the symbols that the reader leaves,
adding the code of what was read and the names in it (`Went`).

Actions that follow are put together as readers are, and so the loops of a
parser follow the chains and lists of the readers: each time round takes one
symbol at least, so the bound on the loop is never what ends it.
-/
import Formula.Expr.Parser

namespace Formula

namespace Expr

namespace Parser

open Act

-- =============================================================== actions

section

variable {α : Type} {p : Parser}

theorem advance_bind (n : Nat) (f : Unit → Act Parser α) :
    (advance n >>= f) p = f () { p with position := p.position + n } := rfl

theorem emit_bind (step : Step) (place : Place) (f : Unit → Act Parser α) :
    (emit step place >>= f) p = f () { p with code := p.code ++ [⟨step, place⟩] } := rfl

theorem isAt_bind_nil {part : Part} {f : Bool → Act Parser α} (h : p.ahead = []) :
    (isAt part >>= f) p = f false p := by
  show f (p.ahead.head?.any _) p = _
  rw [h]
  rfl

theorem isAt_bind_cons {part : Part} {f : Bool → Act Parser α} {s : Symbol} {ss : List Symbol}
    (h : p.ahead = s :: ss) : (isAt part >>= f) p = f (decide (s.part = part)) p := by
  show f (p.ahead.head?.any _) p = _
  rw [h]
  rfl

/-- A failure at the current symbol is one at the end if there is none. -/
theorem fail_eq (cause : Cause) :
    (fail cause : Act Parser α) p
      = .error (Halt.fault ⟨cause, p.ahead.head?.map Symbol.place⟩ p.symbols) p := by
  unfold Halt.fault
  dsimp only
  rw [← Option.map_or]
  rfl

end

-- =============================================================== progress

/-- What it is for a parser to have gone on to the symbols `rest` and to
have added some code. -/
structure Went (p q : Parser) (rest : List Symbol) (added : List Instruction) : Prop where
  source : q.source = p.source
  tokens : q.tokens = p.tokens
  symbols : q.symbols = p.symbols
  ahead : q.ahead = rest
  depth : q.depth = p.depth
  code : q.code = p.code ++ added
  names : q.names = Names.insertAll p.names (added.filterMap Instruction.reads?)

namespace Went

variable {p q r : Parser} {rest further : List Symbol} {code more : List Instruction}

theorem refl (p : Parser) : Went p p p.ahead [] where
  source := rfl
  tokens := rfl
  symbols := rfl
  ahead := rfl
  depth := rfl
  code := (List.append_nil p.code).symm
  names := rfl

theorem trans (h : Went p q rest code) (h' : Went q r further more) :
    Went p r further (code ++ more) where
  source := h'.source.trans h.source
  tokens := h'.tokens.trans h.tokens
  symbols := h'.symbols.trans h.symbols
  ahead := h'.ahead
  depth := h'.depth.trans h.depth
  code := by rw [h'.code, h.code, List.append_assoc]
  names := by rw [h'.names, h.names, List.filterMap_append, Names.insertAll_append]

/-- Moving on by some symbols leaves those behind them. -/
theorem advance (h : Went p q rest code) (n : Nat) :
    Went p { q with position := q.position + n } (rest.drop n) code where
  source := h.source
  tokens := h.tokens
  symbols := h.symbols
  ahead := by
    rw [← h.ahead]
    exact List.drop_drop.symm
  depth := h.depth
  code := h.code
  names := h.names

/-- Moving past the first symbol leaves the others. -/
theorem next {s : Symbol} {ss : List Symbol} (h : Went p q (s :: ss) code) :
    Went p { q with position := q.position + 1 } ss code :=
  h.advance 1

/-- From the start, likewise. -/
theorem first {s : Symbol} {ss : List Symbol} (h : p.ahead = s :: ss) :
    Went p { p with position := p.position + 1 } ss [] := by
  have hstart := refl p
  rw [h] at hstart
  exact hstart.next

/-- An instruction that reads no variable adds itself and no name. -/
theorem emit (h : Went p q rest code) (i : Instruction) (hi : i.reads? = none) :
    Went p { q with code := q.code ++ [i] } rest (code ++ [i]) where
  source := h.source
  tokens := h.tokens
  symbols := h.symbols
  ahead := h.ahead
  depth := h.depth
  code := by rw [h.code, List.append_assoc]
  names := by
    rw [List.filterMap_append, List.filterMap_cons, hi, h.names]
    exact congrArg (Names.insertAll p.names) (List.append_nil _).symm

/-- What takes several values adds how many there are before itself. -/
theorem emitCounted {ts : List Tree} (h : Went p q rest (Tree.codeAll ts)) (place : Place)
    (i : Instruction) (hi : i.reads? = none) :
    Went p { q with code := q.code ++ [Tree.countAt ts place] ++ [i] } rest
      (Tree.codeAll ts ++ [Tree.countAt ts place, i]) := by
  have hcode : Tree.codeAll ts ++ [Tree.countAt ts place, i]
      = Tree.codeAll ts ++ [Tree.countAt ts place] ++ [i] := by
    rw [List.append_assoc]
    rfl
  rw [hcode]
  exact (h.emit (Tree.countAt ts place) rfl).emit i hi

/-- An instruction that reads a variable adds itself and the name. -/
theorem emitVariable (h : Went p q rest code) (name : String) (place : Place) :
    Went p
      { q with names := Names.insert q.names name, code := q.code ++ [⟨.variable name, place⟩] }
      rest (code ++ [⟨.variable name, place⟩]) where
  source := h.source
  tokens := h.tokens
  symbols := h.symbols
  ahead := h.ahead
  depth := h.depth
  code := by rw [h.code, List.append_assoc]
  names := by
    rw [List.filterMap_append, Names.insertAll_append, ← h.names]
    rfl

/-- What was gone a level deeper was gone. -/
theorem within (h : Went { p with depth := p.depth + 1 } q rest code) :
    Went p { q with depth := q.depth - 1 } rest code where
  source := h.source
  tokens := h.tokens
  symbols := h.symbols
  ahead := h.ahead
  depth := by
    show q.depth - 1 = p.depth
    rw [h.depth]
    rfl
  code := h.code
  names := h.names

end Went

-- ============================================================== following

section

variable {α β γ δ : Type} {n m : Nat} {p q : Parser}

/-- What it is for the result of an action on a parser to follow that of a
reader: the same failure, or a value and code that are made from what was
read. -/
def Follows (p : Parser) (result : EStateM.Result Fault Parser α) (x : Except Halt (Parsed β n))
    (value : β → α) (code : β → List Instruction) : Prop :=
  match x with
  | .error halt => ∃ q, result = .error (halt.fault p.symbols) q
  | .ok found => ∃ q, result = .ok (value found.value) q ∧ Went p q found.rest (code found.value)

variable {result : EStateM.Result Fault Parser α} {x : Except Halt (Parsed β n)}
variable {value : β → α} {code : β → List Instruction}

namespace Follows

/-- Allowing for more symbols makes no difference. -/
theorem weaken (h : Follows p result x value code) (hle : n ≤ m) :
    Follows p result (x.map (·.weaken hle)) value code := by
  cases x with
  | error halt => exact h
  | ok found => exact h

/-- Nor does making something of what was read. -/
theorem map (f : β → γ) {value : γ → α} {code : γ → List Instruction} (hle : n ≤ m)
    (h : Follows p result x (fun b => value (f b)) fun b => code (f b)) :
    Follows p result (x.map fun found => (found.map f).weaken hle) value code := by
  cases x with
  | error halt => exact h
  | ok found => exact h

/-- What follows a reader from a later state on follows it from an earlier
one, with the code that was added in between in front. -/
theorem of_went {rest : List Symbol} {before : List Instruction} (hwent : Went p q rest before)
    (h : Follows q result x value code) :
    Follows p result x value fun b => before ++ code b := by
  cases x with
  | error halt =>
      obtain ⟨r, hr⟩ := h
      rw [hwent.symbols] at hr
      exact ⟨r, hr⟩
  | ok found =>
      obtain ⟨r, hr, hmore⟩ := h
      exact ⟨r, hr, hwent.trans hmore⟩

/-- One action and then another follow two readers of which the first is
followed by the one, if what is left is followed by the other. -/
theorem bind {a : Act Parser α} {f : α → Act Parser γ} {y : Except Halt (Parsed δ m)}
    {value' : δ → γ} {code' : δ → List Instruction} {start : Parser}
    (h : Follows p (a start) x value code) (herror : ∀ halt, x = .error halt → y = .error halt)
    (hok : ∀ found q, x = .ok found → Went p q found.rest (code found.value) →
      Follows p (f (value found.value) q) y value' code') :
    Follows p ((a >>= f) start) y value' code' := by
  cases x with
  | error halt =>
      obtain ⟨q, hq⟩ := h
      rw [herror halt rfl]
      exact ⟨q, bind_error hq⟩
  | ok found =>
      obtain ⟨q, hq, hwent⟩ := h
      rw [bind_ok hq]
      exact hok found q rfl hwent

/-- Something may be made of the value in the end. -/
theorem bind_pure {a : Act Parser α} {start : Parser} (f : α → γ)
    (h : Follows p (a start) x value code) :
    Follows p ((a >>= fun v => pure (f v)) start) x (fun b => f (value b)) code :=
  h.bind (fun _ hhalt => hhalt) fun found q hfound hgone => by
    rw [hfound]
    exact ⟨q, rfl, hgone⟩

end Follows

end

/-- What it is for an action to follow a reader of trees wherever it is,
`depth` levels deep. -/
def Tracks (a : Act Parser Unit) (read : Reader Tree) (depth : Nat) : Prop :=
  ∀ p : Parser, p.depth = depth → Follows p (a p) (read p.ahead) (fun _ => ()) Tree.code

/-- The symbol that is expected. -/
theorem expect_follows (p : Parser) (part : Part) (cause : Cause) :
    Follows p (expect part cause p) (Expr.expect part cause p.ahead) (fun _ => ()) fun _ => [] := by
  have hfail := fail_eq (α := Unit) (p := p) cause
  unfold expect
  rw [get_bind]
  cases hahead : p.ahead with
  | nil =>
      rw [hahead] at hfail
      exact ⟨p, hfail⟩
  | cons s ss =>
      rw [hahead] at hfail
      unfold Expr.expect
      dsimp only
      by_cases hs : s.part = part
      · rw [if_pos hs, if_pos hs]
        exact ⟨_, rfl, .first hahead⟩
      · rw [if_neg hs, if_neg hs]
        exact ⟨p, hfail⟩

-- ================================================================= chains

section

variable {joints : Joints} {operand : Act Parser Unit} {read : Reader Tree} {d : Nat}

/-- A loop over joints follows the chain from what was read before. The
bound is no less than the number of symbols left, and each joint takes
one. -/
theorem chainFrom_follows (h : Tracks operand read d) {p : Parser} (hdepth : p.depth = d)
    (left : Tree) {n : Nat} {ss : List Symbol} (hn : ss.length ≤ n) {q : Parser}
    (hwent : Went p q ss left.code) :
    Follows p (chainFrom joints operand n q) (Expr.chainFrom joints read left ss) (fun _ => ())
      Tree.code := by
  induction n generalizing left ss q with
  | zero =>
      rw [List.length_eq_zero_iff.1 (Nat.le_zero.1 hn)] at hwent ⊢
      rw [Expr.chainFrom]
      exact ⟨q, rfl, hwent⟩
  | succ n ih =>
      rw [chainFrom, get_bind, hwent.ahead]
      cases ss with
      | nil =>
          rw [Expr.chainFrom]
          exact ⟨q, rfl, hwent⟩
      | cons s ss =>
          rw [List.length_cons] at hn
          rw [Expr.chainFrom]
          dsimp only
          split
          · next hjoint =>
            rw [hjoint]
            exact ⟨q, rfl, hwent⟩
          · next op k hjoint =>
            rw [hjoint]
            dsimp only
            rw [advance_bind, emit_bind]
            have hjoined := (hwent.advance (k + 1)).emit ⟨.monadic op s.value.text, s.place⟩ rfl
            have hshort : (ss.drop k).length ≤ n := by
              rw [List.length_drop]
              omega
            exact (ih (.monadic op left s.value.text s.place) hshort hjoined).weaken _
          · next op k hjoint =>
            rw [hjoint]
            dsimp only
            rw [advance_bind]
            have hmoved := hwent.advance (k + 1)
            have hright := h _ (hmoved.depth.trans hdepth)
            rw [hmoved.ahead, List.drop_succ_cons] at hright
            refine (hright.of_went hmoved).bind ?_ ?_
            · intro halt hhalt
              rw [hhalt]
            · intro right r hfound hgone
              have hjoined := hgone.emit ⟨.dyadic op s.value.text, s.place⟩ rfl
              have hshort : right.rest.length ≤ n := by
                have hless : right.rest.length < (ss.drop k).length := right.short
                have hdrop : (ss.drop k).length = ss.length - k := List.length_drop
                omega
              rw [hfound]
              dsimp only
              rw [emit_bind]
              exact (ih (.dyadic op left right.value s.value.text s.place) hshort hjoined).weaken _

/-- An operand and what is joined to it. -/
theorem chain_tracks (h : Tracks operand read d) :
    Tracks (chain joints operand) (Expr.chain joints read) d := by
  intro p hdepth
  unfold chain Expr.chain
  refine (h p hdepth).bind ?_ ?_
  · intro halt hhalt
    rw [hhalt]
  · intro first q hfound hgone
    rw [hfound]
    dsimp only
    rw [get_bind, hgone.ahead]
    exact (chainFrom_follows h hdepth first.value (Nat.le_refl _) hgone).weaken _

theorem relational_tracks (h : Tracks operand read d) :
    Tracks (relational operand) (Expr.relational read) d :=
  chain_tracks (chain_tracks (chain_tracks (chain_tracks h)))

end

-- ================================================================== lists

section

variable {item : Act Parser Unit} {read : Reader Tree} {d : Nat}

/-- A loop over the further items of a list reads and counts them. -/
theorem itemsFrom_follows (h : Tracks item read d) {p : Parser} (hdepth : p.depth = d) {n : Nat}
    (hn : p.ahead.length ≤ n) :
    Follows p (Stage.itemsFrom item n p) (Rung.itemsFrom read p.ahead) List.length
      Tree.codeAll := by
  induction n generalizing p with
  | zero =>
      have hwent := Went.refl p
      rw [List.length_eq_zero_iff.1 (Nat.le_zero.1 hn)] at hwent ⊢
      rw [Rung.itemsFrom]
      exact ⟨p, rfl, hwent⟩
  | succ n ih =>
      have hwent := Went.refl p
      rw [Stage.itemsFrom]
      cases hahead : p.ahead with
      | nil =>
          rw [hahead] at hwent
          rw [isAt_bind_nil hahead, Rung.itemsFrom]
          exact ⟨p, rfl, hwent⟩
      | cons s ss =>
          rw [hahead] at hwent
          rw [hahead, List.length_cons] at hn
          rw [isAt_bind_cons hahead, Rung.itemsFrom]
          by_cases hs : s.part = .comma
          · rw [if_pos hs, decide_eq_true hs]
            simp only [if_true]
            rw [advance_bind]
            have hmoved := hwent.next
            have hfirst := h _ (hmoved.depth.trans hdepth)
            rw [hmoved.ahead] at hfirst
            refine (hfirst.of_went hmoved).bind ?_ ?_
            · intro halt hhalt
              rw [hhalt]
            · intro first q hfound hgone
              have hshort : q.ahead.length ≤ n := by
                have hless := first.short
                rw [hgone.ahead]
                omega
              have hmore := (ih (hgone.depth.trans hdepth) hshort).bind_pure (· + 1)
              rw [hgone.ahead] at hmore
              rw [hfound]
              exact (hmore.of_went hgone).map (first.value :: ·) _
          · rw [if_neg hs, decide_eq_false hs]
            exact ⟨p, rfl, hwent⟩

end

end Parser

end Expr

end Formula
