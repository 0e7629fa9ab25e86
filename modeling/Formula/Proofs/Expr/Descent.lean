/-
The descent of a parser against that of the readers. What is read inside a
primary is read one rung further down, and the counter of the nesting is one
higher there: each stage follows the rung from which one may descend as many
times as the counter leaves (`stage_mirrors`). At the limit the counter
refuses at the symbol at which the floor does.

Main statement: a parser reports and holds what is kept of an attempt to
compile its input (`parse_eq`).
-/
import Formula.Proofs.Expr.Progress
import Formula.Proofs.Expr.Reader

namespace Formula

namespace Expr

namespace Parser

open Act

-- ================================================================= atoms

section

variable {below : Stage} {rung : Rung} {d : Nat}

theorem items_follows (h : Tracks below.expression rung.expression d) {p : Parser}
    (hdepth : p.depth = d) :
    Follows p (below.items p) (rung.items p.ahead) List.length Tree.codeAll := by
  unfold Stage.items Rung.items
  refine (h p hdepth).bind ?_ ?_
  · intro halt hhalt
    rw [hhalt]
  · intro first q hfound hgone
    have hmore := (itemsFrom_follows h (hgone.depth.trans hdepth) (Nat.le_refl _)).bind_pure
      (· + 1)
    rw [hgone.ahead] at hmore
    rw [hfound, get_bind, hgone.ahead]
    exact (hmore.of_went hgone).map (first.value :: ·) _

/-- A list is never empty. -/
theorem closedItems_ne_nil {ss rest : List Symbol} {ts : List Tree}
    (h : Returns (rung.closedItems ss) ts rest) : ts ≠ [] := by
  obtain ⟨_, -, hitems⟩ := Rung.closedItems_returns.1 h
  obtain ⟨t, _, -, ts', -, rfl⟩ := Rung.items_returns.1 hitems
  exact List.cons_ne_nil t ts'

theorem closedItems_follows (h : Tracks below.expression rung.expression d) {p : Parser}
    (hdepth : p.depth = d) :
    Follows p (Stage.closed below.items p) (rung.closedItems p.ahead) List.length
      Tree.codeAll := by
  unfold Stage.closed Rung.closedItems
  refine (items_follows h hdepth).bind ?_ ?_
  · intro halt hhalt
    rw [hhalt]
  · intro found q hfound hgone
    have hclose := expect_follows q .rightParen .missingParenthesis
    rw [hgone.ahead] at hclose
    rw [hfound]
    dsimp only
    refine (hclose.of_went hgone).bind ?_ ?_
    · intro halt hhalt
      rw [hhalt]
    · intro close r hclosed hpast
      rw [List.append_nil] at hpast
      rw [hclosed]
      exact ⟨r, rfl, hpast⟩

/-- The arguments of a call, if any, are closed like other items. -/
theorem arguments_follows (h : Tracks below.expression rung.expression d) {p : Parser}
    (hdepth : p.depth = d) :
    Follows p (below.arguments p) (rung.arguments p.ahead) List.length Tree.codeAll := by
  have hitems := closedItems_follows h hdepth
  have hwent := Went.refl p
  cases hahead : p.ahead with
  | nil =>
      have hcount : below.arguments p = Stage.closed below.items p := by
        unfold Stage.arguments Stage.closed
        rw [bind_assoc, isAt_bind_nil hahead]
        rfl
      rw [hahead] at hitems
      rw [hcount]
      exact hitems
  | cons s ss =>
      unfold Rung.arguments
      dsimp only
      by_cases hs : s.part = .rightParen
      · have hcount : below.arguments p
            = (expect .rightParen .missingParenthesis >>= fun _ => pure 0) p := by
          unfold Stage.arguments Stage.closed
          rw [bind_assoc, isAt_bind_cons hahead, decide_eq_true hs]
          rfl
        have hclose := (expect_follows p .rightParen .missingParenthesis).bind_pure fun _ => 0
        rw [hahead] at hclose
        unfold Expr.expect at hclose
        dsimp only at hclose
        rw [if_pos hs] at hclose
        rw [hcount, if_pos hs]
        exact hclose
      · have hcount : below.arguments p = Stage.closed below.items p := by
          unfold Stage.arguments Stage.closed
          rw [bind_assoc, isAt_bind_cons hahead, decide_eq_false hs]
          rfl
        rw [hahead] at hitems
        rw [hcount, if_neg hs]
        exact hitems

/-- A name is a call or a variable. -/
theorem named_follows (h : Tracks below.expression rung.expression d) {p : Parser}
    (hdepth : p.depth = d) (name : Symbol) :
    Follows p (below.named name p) (rung.named name p.ahead) (fun _ => ()) Tree.code := by
  have hvariable := (Went.refl p).emitVariable name.value.text name.place
  unfold Stage.named
  cases hahead : p.ahead with
  | nil =>
      rw [hahead] at hvariable
      rw [isAt_bind_nil hahead]
      exact ⟨_, rfl, hvariable⟩
  | cons s ss =>
      rw [hahead] at hvariable
      rw [isAt_bind_cons hahead]
      unfold Rung.named
      dsimp only
      by_cases hs : s.part = .leftParen
      · rw [if_pos hs, decide_eq_true hs]
        simp only [if_true]
        rw [advance_bind]
        have hmoved := Went.first hahead
        have hargs := arguments_follows h (hmoved.depth.trans hdepth)
        rw [hmoved.ahead] at hargs
        refine .map (fun args => Tree.call name.value.text args name.place) _ ?_
        refine (hargs.of_went hmoved).bind (fun _ hhalt => hhalt) ?_
        intro args q hfound hgone
        rw [List.nil_append] at hgone
        rw [hfound]
        exact ⟨_, rfl, hgone.emitCounted name.place ⟨.function name.value.text, name.place⟩ rfl⟩
      · rw [if_neg hs, decide_eq_false hs]
        exact ⟨_, rfl, hvariable⟩

/-- Parentheses are a group or an array, by the number of what is in
them. -/
theorem grouped_follows (h : Tracks below.expression rung.expression d) {p : Parser}
    (hdepth : p.depth = d) (place : Place) {ss : List Symbol} (hahead : p.ahead = ss) {m : Nat}
    (hle : ss.length ≤ m) :
    Follows p (below.grouped place p)
      ((rung.closedItems ss).map fun r => (r.map (Rung.grouped place)).weaken hle)
      (fun _ => ()) Tree.code := by
  subst hahead
  unfold Stage.grouped
  refine .map _ hle ?_
  refine (closedItems_follows h hdepth).bind (fun _ hhalt => hhalt) ?_
  intro items q hfound hgone
  have hne := closedItems_ne_nil ⟨items, hfound, rfl, rfl⟩
  rw [hfound]
  show ∃ r, _ ∧ Went p r items.rest (Rung.grouped place items.value).code
  cases hitems : items.value with
  | nil => exact absurd hitems hne
  | cons t ts =>
      rw [hitems] at hgone
      cases ts with
      | nil =>
          have hcode : Tree.codeAll [t] = (Rung.grouped place [t]).code := List.append_nil t.code
          rw [hcode] at hgone
          exact ⟨q, rfl, hgone⟩
      | cons u ts => exact ⟨_, rfl, hgone.emitCounted place ⟨.array, place⟩ rfl⟩

/-- A loop over indexes follows the indexes of what was read before. -/
theorem indexes_follows (h : Tracks below.expression rung.expression d) {p : Parser}
    (hdepth : p.depth = d) (base : Tree) {n : Nat} {ss : List Symbol} (hn : ss.length ≤ n)
    {q : Parser} (hwent : Went p q ss base.code) :
    Follows p (below.indexes n q) (rung.indexed base ss) (fun _ => ()) Tree.code := by
  induction n generalizing base ss q with
  | zero =>
      rw [List.length_eq_zero_iff.1 (Nat.le_zero.1 hn)] at hwent ⊢
      rw [Rung.indexed]
      exact ⟨q, rfl, hwent⟩
  | succ n ih =>
      rw [Stage.indexes, get_bind, hwent.ahead]
      cases ss with
      | nil =>
          rw [Rung.indexed]
          exact ⟨q, rfl, hwent⟩
      | cons s ss =>
          rw [List.length_cons] at hn
          rw [Rung.indexed]
          dsimp only
          by_cases hs : s.part = .leftBracket
          · rw [if_pos hs, if_pos hs, advance_bind]
            have hmoved := hwent.next
            have hindex := h _ (hmoved.depth.trans hdepth)
            rw [hmoved.ahead] at hindex
            refine (hindex.of_went hmoved).bind ?_ ?_
            · intro halt hhalt
              rw [hhalt]
            · intro index r hfound hgone
              have hclose := expect_follows r .rightBracket .missingBracket
              rw [hgone.ahead] at hclose
              rw [hfound]
              dsimp only
              refine (hclose.of_went hgone).bind ?_ ?_
              · intro halt hhalt
                rw [hhalt]
              · intro close u hclosed hpast
                rw [List.append_nil] at hpast
                have helement := hpast.emit ⟨.dyadic (.plain .element) s.value.text, s.place⟩ rfl
                have hshort : close.rest.length ≤ n := by
                  have hless := index.short
                  have hless' := close.short
                  omega
                rw [hclosed]
                dsimp only
                rw [emit_bind]
                exact (ih (.dyadic (.plain .element) base index.value s.value.text s.place) hshort
                  helement).weaken _
          · rw [if_neg hs, if_neg hs]
            exact ⟨q, rfl, hwent⟩

/-- An atom is read by what its first symbol is. -/
theorem operand_follows (h : Tracks below.expression rung.expression d) {p : Parser}
    (hdepth : p.depth = d) {s : Symbol} {ss : List Symbol} (hahead : p.ahead = s :: ss)
    (hplus : s.part ≠ .plus) (hminus : s.part ≠ .minus) :
    Follows p (below.operand s p) (rung.atom s ss) (fun _ => ()) Tree.code := by
  have hmoved := Went.first hahead
  unfold Rung.atom
  split
  · next hs =>
    unfold Stage.operand
    rw [hs]
    dsimp only
    rw [advance_bind]
    exact ⟨_, rfl, hmoved.emit ⟨.constant s.value, s.place⟩ rfl⟩
  · next hs =>
    unfold Stage.operand
    rw [hs]
    dsimp only
    rw [advance_bind]
    exact ⟨_, rfl, hmoved.emit ⟨.constant .null, s.place⟩ rfl⟩
  · next hs =>
    have hname := named_follows h (hmoved.depth.trans hdepth) s
    rw [hmoved.ahead] at hname
    unfold Stage.operand
    rw [hs]
    dsimp only
    rw [advance_bind]
    exact hname.of_went hmoved
  · next hs =>
    have hgroup := grouped_follows h (hmoved.depth.trans hdepth) s.place hmoved.ahead
      (Nat.le_succ ss.length)
    unfold Stage.operand
    rw [hs]
    dsimp only
    rw [advance_bind]
    exact hgroup.of_went hmoved
  · next hconstant hnull hvariable hparen =>
    have hwrong : below.operand s = throw (.atPlace (.wrongOperand s.value.text) s.place) := by
      unfold Stage.operand
      split
      · next hs => exact absurd hs hplus
      · next hs => exact absurd hs hminus
      · next hs => exact absurd hs hparen
      · next hs => exact absurd hs hvariable
      · next hs => exact absurd hs hconstant
      · next hs => exact absurd hs hnull
      · rfl
    rw [hwrong]
    exact ⟨p, rfl⟩

end

-- ================================================================= stages

/-- Whether no index follows. -/
def Unindexed (ss : List Symbol) : Prop := ∀ s, ss.head? = some s → s.part ≠ .leftBracket

/-- Indexes are read to the last. -/
theorem unindexed_indexed {rung : Rung} {base t : Tree} {n : Nat} {ss rest : List Symbol}
    (hn : ss.length ≤ n) (h : Returns (rung.indexed base ss) t rest) : Unindexed rest := by
  induction n generalizing base ss with
  | zero =>
      rw [List.length_eq_zero_iff.1 (Nat.le_zero.1 hn)] at h
      obtain ⟨-, rfl⟩ := Rung.indexed_nil_returns.1 h
      exact nofun
  | succ n ih =>
      cases ss with
      | nil =>
          obtain ⟨-, rfl⟩ := Rung.indexed_nil_returns.1 h
          exact nofun
      | cons s ss =>
          by_cases hs : s.part = .leftBracket
          · obtain ⟨i, close, mid, -, ⟨index, -, -, hindex⟩, hmore⟩ :=
              (Rung.indexed_bracket_returns hs).1 h
            have hshort : mid.length ≤ n := by
              have hless := index.short
              rw [hindex, List.length_cons] at hless
              rw [List.length_cons] at hn
              omega
            exact ih hshort hmore
          · obtain ⟨-, rfl⟩ := (Rung.indexed_other_returns hs).1 h
            rintro s' ⟨⟩
            exact hs

/-- Where no index follows, there is nothing to read. -/
theorem indexed_of_unindexed {rung : Rung} {base : Tree} {ss : List Symbol} (h : Unindexed ss) :
    rung.indexed base ss = .ok ⟨base, ss, Nat.lt_succ_self _⟩ := by
  cases ss with
  | nil => rw [Rung.indexed]
  | cons s ss =>
      rw [Rung.indexed, if_neg (h s rfl)]

/-- Behind a primary no index is left: it was read with the primary, or
with the one that a sign stands in front of. -/
theorem unindexed_primary {n : Nat} {t : Tree} {ss rest : List Symbol}
    (h : Returns ((Rung.ofDepth n).primary ss) t rest) : Unindexed rest := by
  induction n generalizing ss t with
  | zero => exact absurd h Rung.not_tooDeep_returns
  | succ n ih =>
      cases ss with
      | nil =>
          have hprimary : Returns (Rung.primaryAbove (Rung.ofDepth n) []) t rest := h
          exact absurd hprimary Rung.not_primaryAbove_nil_returns
      | cons s ss =>
          by_cases hplus : s.part = .plus
          · obtain ⟨u, hu, -⟩ := (Rung.primaryAbove_plus_returns hplus).1 h
            exact ih hu
          · by_cases hminus : s.part = .minus
            · obtain ⟨u, hu, -⟩ := (Rung.primaryAbove_minus_returns hminus).1 h
              exact ih hu
            · obtain ⟨base, mid, -, hmore⟩ :=
                (Rung.primaryAbove_other_returns hplus hminus).1 h
              exact unindexed_indexed (Nat.le_refl _) hmore

-- ================================================================ nesting

section

variable {p : Parser} {s : Symbol} {inner : Act Parser Unit} {n : Nat}
variable {x : Except Halt (Parsed Tree n)}

/-- Entering a level counts it, and fails where it is one too many. -/
theorem descend_eq (s : Symbol) (p : Parser) :
    descend s p = if maxDepth < p.depth + 1
      then .error (.atPlace (.nestedTooDeep maxDepth) s.place) { p with depth := p.depth + 1 }
      else .ok () { p with depth := p.depth + 1 } := by
  show (if maxDepth < p.depth + 1 then _ else _ : Act Parser Unit) _ = _
  split
  · rfl
  · rfl

/-- Below the limit an action may be nested. -/
theorem nested_follows (hdepth : p.depth < maxDepth)
    (h : Follows { p with depth := p.depth + 1 } (inner { p with depth := p.depth + 1 }) x
      (fun _ => ()) Tree.code) :
    Follows p (nested s inner p) x (fun _ => ()) Tree.code := by
  have hdescend := (descend_eq s p).trans (if_neg (Nat.not_lt.2 hdepth))
  unfold nested
  rw [bind_ok hdescend]
  cases x with
  | error halt =>
      obtain ⟨q, hq⟩ := h
      exact ⟨q, bind_error hq⟩
  | ok found =>
      obtain ⟨q, hq, hwent⟩ := h
      rw [bind_ok hq]
      exact ⟨_, rfl, hwent.within⟩

/-- At the limit nothing may be nested. -/
theorem nested_tooDeep (hdepth : maxDepth ≤ p.depth) :
    nested s inner p
      = .error (.atPlace (.nestedTooDeep maxDepth) s.place) { p with depth := p.depth + 1 } := by
  have hdescend := (descend_eq s p).trans (if_pos (Nat.lt_succ_of_le hdepth))
  exact bind_error hdescend

end

/-- What it is for the actions of a stage to follow the readers of a rung,
`depth` levels deep. -/
structure Mirrors (stage : Stage) (rung : Rung) (depth : Nat) : Prop where
  primary : Tracks stage.primary rung.primary depth
  negation : Tracks stage.negation rung.negation depth

section

variable {below : Stage} {rung : Rung} {d : Nat}

theorem Mirrors.expression (h : Mirrors below rung d) :
    Tracks below.expression rung.expression d :=
  chain_tracks h.negation

/-- An operand with the indexes behind it, of which `x` is read first and
all of which is `y`. -/
theorem operandIndexed_follows (h : Tracks below.expression rung.expression d) {p : Parser}
    (hdepth : p.depth = d) {s : Symbol} {n m : Nat} {x : Except Halt (Parsed Tree n)}
    {y : Except Halt (Parsed Tree m)}
    (hoperand : Follows p (below.operand s p) x (fun _ => ()) Tree.code)
    (herror : ∀ halt, x = .error halt → y = .error halt)
    (hok : ∀ base, x = .ok base →
      ∃ hle, y = (rung.indexed base.value base.rest).map (·.weaken hle)) :
    Follows p ((do below.operand s; below.indexes (← get).ahead.length : Act Parser Unit) p) y
      (fun _ => ()) Tree.code := by
  refine hoperand.bind herror ?_
  intro base q hfound hgone
  obtain ⟨hle, hy⟩ := hok base hfound
  rw [get_bind, hgone.ahead, hy]
  exact (indexes_follows h hdepth base.value (Nat.le_refl _) hgone).weaken hle

/-- A sign and the primary behind it. -/
theorem signed_follows (h : Tracks below.primary rung.primary d) {p : Parser}
    (hdepth : p.depth = d) {s : Symbol} {ss : List Symbol} (hahead : p.ahead = s :: ss) :
    (s.part = .plus → Follows p (below.operand s p)
      ((rung.primary ss).map fun r => (r.map .plus).weaken (Nat.le_succ ss.length))
      (fun _ => ()) Tree.code)
    ∧ (s.part = .minus → Follows p (below.operand s p)
      ((rung.primary ss).map fun r => (r.map fun t =>
        .monadic (.plain .negative) t s.value.text s.place).weaken (Nat.le_succ ss.length))
      (fun _ => ()) Tree.code) := by
  have hmoved := Went.first hahead
  have hprimary := h _ (hmoved.depth.trans hdepth)
  rw [hmoved.ahead] at hprimary
  refine ⟨fun hs => ?_, fun hs => ?_⟩
  · unfold Stage.operand
    rw [hs]
    dsimp only
    rw [advance_bind]
    exact (hprimary.of_went hmoved).map Tree.plus _
  · unfold Stage.operand
    rw [hs]
    dsimp only
    rw [advance_bind]
    refine .map (fun t => Tree.monadic (.plain .negative) t s.value.text s.place) _ ?_
    refine (hprimary.of_went hmoved).bind (fun _ hhalt => hhalt) ?_
    intro operand q hfound hgone
    rw [hfound]
    exact ⟨_, rfl, hgone.emit ⟨.monadic (.plain .negative) s.value.text, s.place⟩ rfl⟩

/-- Behind what a sign stands in front of no index is left, so it makes no
difference that the loop over indexes is tried again there. -/
theorem signedIndexed_follows (h : Tracks below.expression rung.expression d)
    (hread : ∀ {ss : List Symbol} {t : Tree} {rest : List Symbol},
      Returns (rung.primary ss) t rest → Unindexed rest) {p : Parser} (hdepth : p.depth = d)
    {s : Symbol} {ss : List Symbol} {m : Nat} {hle : ss.length ≤ m} {f : Tree → Tree}
    (hoperand : Follows p (below.operand s p)
      ((rung.primary ss).map fun r => (r.map f).weaken hle) (fun _ => ()) Tree.code) :
    Follows p ((do below.operand s; below.indexes (← get).ahead.length : Act Parser Unit) p)
      ((rung.primary ss).map fun r => (r.map f).weaken hle) (fun _ => ()) Tree.code := by
  refine operandIndexed_follows h hdepth hoperand (fun _ hhalt => hhalt) ?_
  intro base hbase
  obtain ⟨u, hu, -⟩ := returns_map_weaken.1 ⟨base, hbase, rfl, rfl⟩
  rw [hbase, indexed_of_unindexed (hread hu)]
  exact ⟨base.short, rfl⟩

/-- A primary follows a primary. -/
theorem primaryAbove_tracks (h : Mirrors below rung (d + 1)) (hd : d < maxDepth)
    (hread : ∀ {ss : List Symbol} {t : Tree} {rest : List Symbol},
      Returns (rung.primary ss) t rest → Unindexed rest) :
    Tracks below.primaryAbove rung.primaryAbove d := by
  intro p hdepth
  subst hdepth
  have hfail := fail_eq (α := Unit) (p := p) .endOfExpression
  unfold Stage.primaryAbove
  rw [get_bind]
  cases hahead : p.ahead with
  | nil =>
      rw [hahead] at hfail
      exact ⟨p, hfail⟩
  | cons s ss =>
      refine nested_follows hd ?_
      obtain ⟨hplus, hminus⟩ := signed_follows h.primary (p := { p with depth := p.depth + 1 })
        rfl hahead
      unfold Rung.primaryAbove
      dsimp only
      split
      · next hs => exact signedIndexed_follows h.expression hread rfl (hplus hs)
      · next hs => exact signedIndexed_follows h.expression hread rfl (hminus hs)
      · next hplus hminus =>
        refine operandIndexed_follows h.expression rfl
          (operand_follows h.expression rfl hahead hplus hminus) ?_ ?_
        · intro halt hhalt
          rw [hhalt]
        · intro base hbase
          rw [hbase]
          exact ⟨base.short, rfl⟩

/-- What begins with `NOT` follows what begins with `NOT`, and a comparison
a comparison. -/
theorem negationAbove_tracks (h : Mirrors below rung (d + 1)) (hd : d < maxDepth)
    {primary : Act Parser Unit} {read : Reader Tree} (hprimary : Tracks primary read d) :
    Tracks (below.negationAbove primary) (rung.negationAbove read) d := by
  intro p hdepth
  have hrelational := relational_tracks hprimary p hdepth
  subst hdepth
  unfold Stage.negationAbove
  rw [get_bind]
  cases hahead : p.ahead with
  | nil =>
      rw [hahead] at hrelational
      exact hrelational
  | cons s ss =>
      rw [hahead] at hrelational
      unfold Rung.negationAbove
      dsimp only
      by_cases hs : s.part = .not
      · rw [if_pos hs, if_pos hs]
        refine nested_follows hd ?_
        rw [advance_bind]
        have hmoved := Went.first (p := { p with depth := p.depth + 1 }) hahead
        have hnegated := h.negation _ hmoved.depth
        rw [hmoved.ahead] at hnegated
        refine .map (fun t => Tree.monadic (.plain .not) t s.value.text s.place) _ ?_
        refine (hnegated.of_went hmoved).bind (fun _ hhalt => hhalt) ?_
        intro operand q hfound hgone
        rw [hfound]
        exact ⟨_, rfl, hgone.emit ⟨.monadic (.plain .not) s.value.text, s.place⟩ rfl⟩
      · rw [if_neg hs, if_neg hs]
        exact hrelational

end

/-- A comparison of what is too deep is too deep. -/
theorem relational_tooDeep (ss : List Symbol) :
    Expr.relational Rung.tooDeep ss = Rung.tooDeep ss := by
  cases ss with
  | nil => rfl
  | cons s ss => rfl

/-- At the limit of the nesting a stage refuses what the floor does. -/
theorem above_mirrors_floor (below : Stage) : Mirrors (Stage.above below) Rung.floor maxDepth := by
  have hprimary : Tracks below.primaryAbove Rung.tooDeep maxDepth := by
    intro p hdepth
    have hfail := fail_eq (α := Unit) (p := p) .endOfExpression
    unfold Stage.primaryAbove
    rw [get_bind]
    cases hahead : p.ahead with
    | nil =>
        rw [hahead] at hfail
        exact ⟨p, hfail⟩
    | cons s ss => exact ⟨_, nested_tooDeep (Nat.le_of_eq hdepth.symm)⟩
  refine ⟨hprimary, ?_⟩
  intro p hdepth
  have hrelational := relational_tracks hprimary p hdepth
  rw [relational_tooDeep] at hrelational
  show Follows p (Stage.negationAbove below below.primaryAbove p) (Rung.tooDeep p.ahead) _ _
  unfold Stage.negationAbove
  rw [get_bind]
  cases hahead : p.ahead with
  | nil =>
      rw [hahead] at hrelational
      exact hrelational
  | cons s ss =>
      rw [hahead] at hrelational
      dsimp only
      by_cases hs : s.part = .not
      · rw [if_pos hs]
        exact ⟨_, nested_tooDeep (Nat.le_of_eq hdepth.symm)⟩
      · rw [if_neg hs]
        exact hrelational

/-- Each stage follows the rung from which one may descend as many times,
where the counter of the nesting leaves as many. -/
theorem stage_mirrors {n d : Nat} (h : n + d = maxDepth) :
    Mirrors (Stage.ofDepth (n + 1)) (Rung.ofDepth n) d := by
  induction n generalizing d with
  | zero =>
      rw [Nat.zero_add] at h
      subst h
      exact above_mirrors_floor _
  | succ n ih =>
      have hbelow := ih (d := d + 1) (by omega)
      have hd : d < maxDepth := by omega
      have hprimary := primaryAbove_tracks hbelow hd unindexed_primary
      exact ⟨hprimary, negationAbove_tracks hbelow hd hprimary⟩

-- =============================================================== analysis

/-- The stage at which a parser begins follows the rung at which a reader
does, wherever the parser was before. -/
theorem expression_follows (p : Parser) :
    Follows { p with position := 0, depth := 0, code := [] }
      ((Stage.ofDepth (maxDepth + 1)).expression { p with position := 0, depth := 0, code := [] })
      ((Rung.ofDepth maxDepth).expression p.symbols) (fun _ => ()) Tree.code :=
  (stage_mirrors (Nat.add_zero maxDepth)).expression
    { p with position := 0, depth := 0, code := [] } rfl

-- Two parentheses that nothing closes: the failure leaves the nesting as it
-- was, and it is forgotten before it could count for the next input.
example :
    let open' : Symbol := ⟨.leftParen, .null, .origin⟩
    (match analyse { new with symbols := [open', open'] } with
      | .ok _ p => p.depth
      | .error _ p => p.depth) = 2 := rfl

/-- A parser that knows no names finds in its symbols the code and the names
of their tree. -/
theorem analyse_finds {p : Parser} (hnames : p.names = []) :
    Finds Parser.toCompiled (analyse p) (do
      let t ← tree p.symbols
      .ok { p.toCompiled with code := t.code, names := variableNames t.code }) := by
  have hwhole := expression_follows p
  have hanalyse : analyse p = ((Stage.ofDepth (maxDepth + 1)).expression >>= fun _ => finish)
      { p with position := 0, depth := 0, code := [] } := rfl
  unfold tree
  cases hread : (Rung.ofDepth maxDepth).expression p.symbols with
  | error halt =>
      rw [hread] at hwhole
      obtain ⟨q, hq⟩ := hwhole
      rw [hanalyse]
      exact ⟨q, bind_error hq⟩
  | ok found =>
      rw [hread] at hwhole
      obtain ⟨q, hq, hwent⟩ := hwhole
      rw [hanalyse, bind_ok hq]
      unfold finish
      rw [get_bind, hwent.ahead]
      dsimp only
      cases hrest : found.rest with
      | nil =>
          have hnames' : q.names = variableNames found.value.code := by
            have hadded := Names.insertAll_nil (found.value.code.filterMap Instruction.reads?)
            rw [← hnames] at hadded
            exact hwent.names.trans hadded
          have hcompiled : q.toCompiled = ⟨q.source, q.tokens, q.symbols, q.code, q.names⟩ := rfl
          rw [hwent.source, hwent.tokens, hwent.symbols, hwent.code, hnames'] at hcompiled
          exact ⟨q, rfl, hcompiled⟩
      | cons s ss => exact ⟨q, rfl⟩

-- =============================================================== requests

/-- A parser that holds nothing but tokens and their source finds what
compiling them finds. -/
theorem classify_finds (source : String) (tokens : List Token) :
    Finds Parser.toCompiled
      ((do classify; analyse : Act Parser Unit) { new with source := source, tokens := tokens })
      (Compiled.ofSource source tokens) := by
  unfold Compiled.ofSource classify
  rw [bind_assoc, get_bind, bind_assoc]
  refine Finds.ofExcept_bind fun symbols => ?_
  exact analyse_finds (p := { new with source := source, tokens := tokens, symbols := symbols })
    rfl

/-- A new parser finds in an input what compiling it finds. -/
theorem work_finds (input : Input) :
    Finds Parser.toCompiled (work input new) (Compiled.ofInput input) := by
  cases input with
  | text text =>
      show Finds Parser.toCompiled ((load (.text text) >>= fun _ => do classify; analyse) new)
        (Compiled.ofText text)
      unfold load Compiled.ofText
      rw [bind_assoc]
      show Finds _ (((Act.ofExcept (Lexer.expression.tokens text) >>= _) >>= _) _) _
      rw [bind_assoc]
      refine Finds.ofExcept_bind fun tokens => ?_
      exact classify_finds text tokens
  | tokens tokens => exact classify_finds (String.join (tokens.map Token.text)) tokens

/-- Forgetting everything leaves a new parser. -/
theorem cleared_eq (p : Parser) : p.cleared = new := rfl

/-- A parser reports and holds what is kept of an attempt to compile its
input, whatever it was asked before. -/
theorem parse_eq (p : Parser) (input : Input) :
    (p.parse input).1 = (Compiled.kept (Compiled.ofInput input)).1
      ∧ (p.parse input).2.toCompiled = (Compiled.kept (Compiled.ofInput input)).2 := by
  have hwork := work_finds input
  unfold parse
  rw [cleared_eq]
  cases hinput : Compiled.ofInput input with
  | error fault =>
      rw [hinput] at hwork
      obtain ⟨q, hq⟩ := hwork.attempt_error
      rw [hq]
      exact ⟨rfl, rfl⟩
  | ok compiled =>
      rw [hinput] at hwork
      obtain ⟨q, hq, hcompiled⟩ := hwork.attempt_ok
      rw [hq]
      exact ⟨rfl, hcompiled⟩

/-- A parser that fails is as new. -/
theorem parse_failed {p : Parser} {input : Input} (h : (p.parse input).1 ≠ none) :
    (p.parse input).2 = new := by
  obtain ⟨q, hq⟩ := attempt_failed h
  exact hq.trans (cleared_eq q)

end Parser

end Expr

end Formula
