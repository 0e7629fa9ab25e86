/-
Readers return phrases. A reader is `Sound` for a kind of phrase and a
number of rungs when all it returns is a phrase of that kind at the front
of the symbols, nested no deeper than the rungs. Soundness is proved
reader by reader and then, by induction on the number of rungs, for the
readers of every rung (`sound_ofDepth`).

The loops that read on after an operand are sound in another form: what
they return is a phrase made of the symbols read before and a stretch
more.
-/
import Formula.Proofs.Expr.Joints
import Formula.Proofs.Expr.Reader

namespace Formula

namespace Expr

/-- All that a reader returns is a phrase at the front of the symbols,
nested at most `n` deep. -/
def Sound (p : Phrase) (n : Nat) (reader : Reader Tree) : Prop :=
  ∀ ⦃ss rest : List Symbol⦄ ⦃t : Tree⦄, Returns (reader ss) t rest →
    ∃ front, ss = front ++ rest ∧ Derives p front t ∧ t.depth ≤ n

-- =================================================================== chains

/-- How far a joint is above the operand behind it. -/
def Joint.nests : Joint → Nat
  | .between op => op.nests
  | .behind op => op.nests

/-- No joint is a rung above its operands. -/
theorem Level.nests_of_spells {k : Level} {ms : List Symbol} {j : Joint}
    (h : k.Spells ms j) : j.nests = 0 := by
  have htable : ∀ e ∈ k.table, e.2.nests = 0 := by
    cases k <;> decide
  exact htable _ h

section

variable {k : Level} {n : Nat} {operand : Reader Tree}

/-- Reading on after a chain returns a longer chain. -/
theorem sound_chainFrom (hop : Sound k.operand n operand)
    {ss rest front : List Symbol} {left t : Tree}
    (hleft : Derives (.chain k) front left) (hdepth : left.depth ≤ n)
    (h : Returns (chainFrom k.joints operand left ss) t rest) :
    ∃ more, ss = more ++ rest ∧ Derives (.chain k) (front ++ more) t
      ∧ t.depth ≤ n := by
  induction hlen : ss.length using Nat.strongRecOn
    generalizing ss front left with
  | ind len ih =>
  subst hlen
  cases ss with
  | nil =>
      obtain ⟨rfl, rfl⟩ := chainFrom_nil_returns.mp h
      exact ⟨[], rfl, by simpa using hleft, hdepth⟩
  | cons s ss =>
      cases hj : k.joints s ss with
      | none =>
          obtain ⟨rfl, rfl⟩ := (chainFrom_none_returns hj).mp h
          exact ⟨[], rfl, by simpa using hleft, hdepth⟩
      | some found =>
          obtain ⟨j, m⟩ := found
          have hspelled := Level.spells_of_joints hj
          have hnests := Level.nests_of_spells hspelled
          have hsplit : ss = ss.take m ++ ss.drop m :=
            (List.take_append_drop m ss).symm
          cases j with
          | behind op =>
              have hchain := Derives.behind hleft hspelled
              have hdepth' : (Tree.monadic op left s.value.text
                  s.place).depth ≤ n := by
                rw [Tree.depth, show op.nests = 0 from hnests]
                omega
              obtain ⟨more, hmore, ht, htd⟩ :=
                ih (ss.drop m).length
                  (by simp only [List.length_cons, List.length_drop]; omega)
                  hchain hdepth' ((chainFrom_behind_returns hj).mp h) rfl
              refine ⟨s :: (ss.take m ++ more), ?_, ?_, htd⟩
              · rw [List.cons_append, List.append_assoc, ← hmore, ← hsplit]
              · simpa using ht
          | between op =>
              obtain ⟨right, mid, hright, hrest⟩ :=
                (chainFrom_between_returns hj).mp h
              obtain ⟨rs, hrs, hderives, hrd⟩ := hop hright
              have hchain := Derives.between hleft hspelled hderives
              have hdepth' : (Tree.dyadic op left right s.value.text
                  s.place).depth ≤ n := by
                rw [Tree.depth, show op.nests = 0 from hnests]
                omega
              have hlt : mid.length < (s :: ss).length := by
                have := congrArg List.length hrs
                simp only [List.length_drop, List.length_append] at this
                simp only [List.length_cons]
                omega
              obtain ⟨more, hmore, ht, htd⟩ :=
                ih mid.length hlt hchain hdepth' hrest rfl
              refine ⟨s :: (ss.take m ++ rs ++ more), ?_, ?_, htd⟩
              · rw [List.cons_append, List.append_assoc, List.append_assoc,
                  ← hmore, ← hrs, ← hsplit]
              · simpa using ht

/-- A chain of sound operands is sound. -/
theorem sound_chain (hop : Sound k.operand n operand) :
    Sound (.chain k) n (chain k.joints operand) := by
  intro ss rest t h
  obtain ⟨first, mid, hfirst, hmore⟩ := chain_returns.mp h
  obtain ⟨front, rfl, hderives, hdepth⟩ := hop hfirst
  obtain ⟨more, rfl, ht, htd⟩ :=
    sound_chainFrom hop (.operand hderives) hdepth hmore
  exact ⟨front ++ more, by rw [List.append_assoc], ht, htd⟩

/-- Comparisons are chains of chains of primaries. -/
theorem sound_relational {primary : Reader Tree}
    (h : Sound .primary n primary) :
    Sound (.chain .relational) n (relational primary) :=
  sound_chain (k := .relational) (sound_chain (k := .additive)
    (sound_chain (k := .multiplicative) (sound_chain (k := .power) h)))

end

namespace Rung

section

variable {n : Nat} {below : Rung}

-- ==================================================================== lists

/-- Items are phrases with commas between them, each nested as deep as the
rung allows. -/
def ItemsAt (n : Nat) (items : List (List Symbol × Tree)) : Prop :=
  ∀ i ∈ items, Derives (.chain .logical) i.1 i.2 ∧ i.2.depth ≤ n

/-- Reading on after an item returns it with the items behind it. -/
theorem sound_itemsFrom {item : Reader Tree}
    (hitem : Sound (.chain .logical) n item) {ts : List Tree} :
    ∀ {first : List Symbol} {t : Tree} {ss rest : List Symbol},
      Derives (.chain .logical) first t → t.depth ≤ n →
      Returns (itemsFrom item ss) ts rest →
      ∃ items more, Listed (items.map Prod.fst) (first ++ more)
        ∧ ss = more ++ rest ∧ items.map Prod.snd = t :: ts
        ∧ ItemsAt n items := by
  induction ts with
  | nil =>
      intro first t ss rest hfirst hdepth h
      refine ⟨[(first, t)], [], ?_, ?_, rfl, ?_⟩
      · simpa using Listed.one first
      · cases ss with
        | nil => exact (itemsFrom_nil_returns.mp h).2
        | cons s ss =>
            by_cases hs : s.part = .comma
            · obtain ⟨u, mid, -, ts', -, hts⟩ :=
                (itemsFrom_comma_returns hs).mp h
              cases hts
            · exact ((itemsFrom_other_returns hs).mp h).2
      · intro i hi
        obtain rfl := List.mem_singleton.mp hi
        exact ⟨hfirst, hdepth⟩
  | cons u us ih =>
      intro first t ss rest hfirst hdepth h
      cases ss with
      | nil => exact absurd (itemsFrom_nil_returns.mp h).1 (by simp)
      | cons s ss =>
          by_cases hs : s.part = .comma
          · obtain ⟨u', mid, hu, ts', hmore, hts⟩ :=
              (itemsFrom_comma_returns hs).mp h
            injection hts with hu' hts'
            subst hu' hts'
            obtain ⟨second, rfl, hsecond, hud⟩ := hitem hu
            obtain ⟨items, more, hlisted, rfl, hvalues, hitems⟩ :=
              ih hsecond hud hmore
            refine ⟨(first, t) :: items, s :: (second ++ more), ?_, ?_, ?_,
              ?_⟩
            · exact Listed.more hs hlisted
            · simp
            · rw [List.map_cons, hvalues]
            · intro i hi
              rcases List.mem_cons.mp hi with rfl | hi
              · exact ⟨hfirst, hdepth⟩
              · exact hitems i hi
          · exact absurd ((itemsFrom_other_returns hs).mp h).1 (by simp)

/-- What items up to a closing parenthesis are. -/
theorem sound_closedItems (he : Sound (.chain .logical) n below.expression)
    {ss rest : List Symbol} {ts : List Tree}
    (h : Returns (below.closedItems ss) ts rest) :
    ∃ items inner close, Listed (items.map Prod.fst) inner
      ∧ close.part = .rightParen ∧ ss = inner ++ close :: rest
      ∧ items.map Prod.snd = ts ∧ ItemsAt n items := by
  obtain ⟨close, hclose, hitems⟩ := closedItems_returns.mp h
  obtain ⟨t, mid, ht, ts', hmore, rfl⟩ := items_returns.mp hitems
  obtain ⟨first, rfl, hfirst, hdepth⟩ := he ht
  obtain ⟨items, more, hlisted, rfl, hvalues, hall⟩ :=
    sound_itemsFrom he hfirst hdepth hmore
  exact ⟨items, first ++ more, close, hlisted, hclose,
    by rw [List.append_assoc], hvalues, hall⟩

/-- The deepest of several items. -/
theorem depthAll_items {items : List (List Symbol × Tree)}
    (h : ItemsAt n items) : Tree.depthAll (items.map Prod.snd) ≤ n := by
  rw [Tree.depthAll_le_iff]
  intro t ht
  obtain ⟨i, hi, rfl⟩ := List.mem_map.mp ht
  exact (h i hi).2

-- ================================================================ primaries

/-- What a name with its arguments is. -/
theorem sound_named (he : Sound (.chain .logical) n below.expression)
    {s : Symbol} {ss rest : List Symbol} {t : Tree} (hs : s.part = .variable)
    (h : Returns (below.named s ss) t rest) :
    ∃ front, s :: ss = front ++ rest ∧ Derives .indexed front t
      ∧ t.depth ≤ n + 1 := by
  have hvariable : (∀ o rest', ss = o :: rest' → o.part ≠ .leftParen) →
      ∃ front, s :: ss = front ++ rest ∧ Derives .indexed front t
        ∧ t.depth ≤ n + 1 := by
    intro hss
    obtain ⟨rfl, rfl⟩ := (named_variable_returns hss).mp h
    exact ⟨[s], rfl, .variable hs, by rw [Tree.depth]; omega⟩
  cases ss with
  | nil => exact hvariable fun o rest' hss => by cases hss
  | cons o ss =>
      by_cases ho : o.part = .leftParen
      · obtain ⟨args, hargs, rfl⟩ := (named_call_returns ho).mp h
        have hclosed : Returns (below.closedItems ss) args rest →
            ∃ front, s :: o :: ss = front ++ rest
              ∧ Derives .indexed front
                (.call s.value.text args s.place)
              ∧ (Tree.call s.value.text args s.place).depth ≤ n + 1 := by
          intro hargs
          obtain ⟨items, inner, close, hlisted, hclose, rfl, rfl, hall⟩ :=
            sound_closedItems he hargs
          refine ⟨s :: o :: (inner ++ [close]), by simp,
            .call hs ho hlisted (fun i hi => (hall i hi).1) hclose, ?_⟩
          have := depthAll_items hall
          rw [Tree.depth]
          omega
        cases ss with
        | nil => exact hclosed hargs
        | cons e ss =>
            by_cases hclose : e.part = .rightParen
            · obtain ⟨rfl, rfl⟩ := (arguments_close_returns hclose).mp hargs
              refine ⟨[s, o, e], rfl, .thunk hs ho hclose, ?_⟩
              rw [Tree.depth, Tree.depthAll]
              omega
            · exact hclosed ((arguments_other_returns hclose).mp hargs)
      · refine hvariable fun o' rest' hss => ?_
        injection hss with ho'
        rw [← ho']
        exact ho

/-- What parentheses around items are. -/
theorem derives_grouped {items : List (List Symbol × Tree)}
    {inner : List Symbol} {o close : Symbol} (ho : o.part = .leftParen)
    (hlisted : Listed (items.map Prod.fst) inner)
    (hall : ItemsAt n items) (hclose : close.part = .rightParen) :
    Derives .indexed (o :: (inner ++ [close]))
        (grouped o.place (items.map Prod.snd))
      ∧ (grouped o.place (items.map Prod.snd)).depth ≤ n + 1 := by
  match items, hlisted, hall with
  | [(ss, t)], .one _, hall =>
      obtain ⟨ht, hdepth⟩ := hall (ss, t) (List.mem_singleton.mpr rfl)
      have hdepth : t.depth ≤ n := hdepth
      refine ⟨.group ho ht hclose, ?_⟩
      show (Tree.group t).depth ≤ n + 1
      rw [Tree.depth]
      omega
  | i :: i' :: items, hlisted, hall =>
      refine ⟨.array ho hlisted (by simp) (fun i hi => (hall i hi).1) hclose,
        ?_⟩
      have := depthAll_items hall
      show (Tree.array ((i :: i' :: items).map Prod.snd) o.place).depth
        ≤ n + 1
      rw [Tree.depth]
      omega

/-- What is read as an atom is one. -/
theorem sound_atom (he : Sound (.chain .logical) n below.expression)
    {s : Symbol} {ss rest : List Symbol} {t : Tree}
    (h : Returns (below.atom s ss) t rest) :
    ∃ front, s :: ss = front ++ rest ∧ Derives .indexed front t
      ∧ t.depth ≤ n + 1 := by
  rcases atom_returns_part h with hs | hs | hs | hs
  · obtain ⟨rfl, rfl⟩ := (atom_constant_returns hs).mp h
    exact ⟨[s], rfl, .constant hs, by rw [Tree.depth]; omega⟩
  · obtain ⟨rfl, rfl⟩ := (atom_null_returns hs).mp h
    exact ⟨[s], rfl, .null hs, by rw [Tree.depth]; omega⟩
  · exact sound_named he hs ((atom_variable_returns hs).mp h)
  · obtain ⟨ts, hts, rfl⟩ := (atom_group_returns hs).mp h
    obtain ⟨items, inner, close, hlisted, hclose, rfl, rfl, hall⟩ :=
      sound_closedItems he hts
    obtain ⟨hderives, hdepth⟩ := derives_grouped hs hlisted hall hclose
    exact ⟨s :: (inner ++ [close]), by simp, hderives, hdepth⟩

/-- Reading on after an atom returns it with the indexes behind it. -/
theorem sound_indexed (he : Sound (.chain .logical) n below.expression)
    {ss rest front : List Symbol} {base t : Tree}
    (hbase : Derives .indexed front base) (hdepth : base.depth ≤ n + 1)
    (h : Returns (below.indexed base ss) t rest) :
    ∃ more, ss = more ++ rest ∧ Derives .indexed (front ++ more) t
      ∧ t.depth ≤ n + 1 := by
  induction hlen : ss.length using Nat.strongRecOn
    generalizing ss front base with
  | ind len ih =>
  subst hlen
  cases ss with
  | nil =>
      obtain ⟨rfl, rfl⟩ := indexed_nil_returns.mp h
      exact ⟨[], rfl, by simpa using hbase, hdepth⟩
  | cons s ss =>
      by_cases hs : s.part = .leftBracket
      · obtain ⟨i, close, mid, hclose, hi, hmore⟩ :=
          (indexed_bracket_returns hs).mp h
        obtain ⟨is, rfl, hindex, hid⟩ := he hi
        have hnext := Derives.index hbase hs hindex hclose
        have hdepth' : (Tree.dyadic (.plain .element) base i s.value.text
            s.place).depth ≤ n + 1 := by
          rw [Tree.depth, Dyadic.nests]
          omega
        obtain ⟨more, rfl, ht, htd⟩ :=
          ih mid.length (by simp; omega) hnext hdepth' hmore rfl
        exact ⟨s :: (is ++ close :: more), by simp, by simpa using ht, htd⟩
      · obtain ⟨rfl, rfl⟩ := (indexed_other_returns hs).mp h
        exact ⟨[], rfl, by simpa using hbase, hdepth⟩

/-- Primaries above sound readers are sound, one rung higher. -/
theorem sound_primaryAbove (hp : Sound .primary n below.primary)
    (he : Sound (.chain .logical) n below.expression) :
    Sound .primary (n + 1) (primaryAbove below) := by
  intro ss rest t h
  cases ss with
  | nil => exact absurd h not_primaryAbove_nil_returns
  | cons s ss =>
      by_cases hplus : s.part = .plus
      · obtain ⟨u, hu, rfl⟩ := (primaryAbove_plus_returns hplus).mp h
        obtain ⟨front, rfl, hfront, hdepth⟩ := hp hu
        refine ⟨s :: front, rfl, .plus hplus hfront, ?_⟩
        rw [Tree.depth]
        omega
      · by_cases hminus : s.part = .minus
        · obtain ⟨u, hu, rfl⟩ := (primaryAbove_minus_returns hminus).mp h
          obtain ⟨front, rfl, hfront, hdepth⟩ := hp hu
          refine ⟨s :: front, rfl, .minus hminus hfront, ?_⟩
          rw [Tree.depth, Monadic.nests]
          omega
        · obtain ⟨base, mid, hbase, hmore⟩ :=
            (primaryAbove_other_returns hplus hminus).mp h
          obtain ⟨front, hfront, hderives, hdepth⟩ := sound_atom he hbase
          obtain ⟨more, rfl, ht, htd⟩ :=
            sound_indexed he hderives hdepth hmore
          exact ⟨front ++ more, by rw [hfront, List.append_assoc],
            .unsigned ht, htd⟩

-- ==================================================================== rungs

/-- Negations above sound readers are sound, one rung higher. -/
theorem sound_negationAbove {primary : Reader Tree}
    (hn : Sound .negation n below.negation)
    (hp : Sound .primary (n + 1) primary) :
    Sound .negation (n + 1) (negationAbove below primary) := by
  intro ss rest t h
  have hcomparison :
      (∀ o rest', ss = o :: rest' → o.part ≠ .not) →
      ∃ front, ss = front ++ rest ∧ Derives .negation front t
        ∧ t.depth ≤ n + 1 := by
    intro hss
    obtain ⟨front, rfl, hfront, hdepth⟩ :=
      sound_relational hp ((negationAbove_other_returns hss).mp h)
    exact ⟨front, rfl, .comparison hfront, hdepth⟩
  cases ss with
  | nil => exact hcomparison fun o rest' hss => by cases hss
  | cons s ss =>
      by_cases hs : s.part = .not
      · obtain ⟨u, hu, rfl⟩ := (negationAbove_not_returns hs).mp h
        obtain ⟨front, rfl, hfront, hdepth⟩ := hn hu
        refine ⟨s :: front, rfl, .not hs hfront, ?_⟩
        rw [Tree.depth, Monadic.nests]
        omega
      · refine hcomparison fun o rest' hss => ?_
        injection hss with ho
        rw [← ho]
        exact hs

/-- What is read as an expression on a rung is one. -/
theorem sound_expression {r : Rung} (h : Sound .negation n r.negation) :
    Sound (.chain .logical) n r.expression :=
  sound_chain (k := .logical) h

end

/-- The readers of every rung are sound for as many levels of nesting. -/
theorem sound_ofDepth (n : Nat) :
    Sound .primary n (ofDepth n).primary
      ∧ Sound .negation n (ofDepth n).negation := by
  induction n with
  | zero =>
      exact ⟨fun _ _ _ h => absurd h not_tooDeep_returns,
        fun _ _ _ h => absurd h not_tooDeep_returns⟩
  | succ n ih =>
      have hprimary := sound_primaryAbove ih.1 (sound_expression ih.2)
      exact ⟨hprimary, sound_negationAbove ih.2 hprimary⟩

end Rung

end Expr

end Formula
