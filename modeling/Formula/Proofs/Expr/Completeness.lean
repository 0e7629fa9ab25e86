/-
Readers find phrases. A reader is `Complete` for a kind of phrase and a
number of rungs when it returns the tree of every such phrase at the front
of the symbols that is nested no deeper than the rungs, provided the phrase
ends there.

Chains and indexes group to the left, so a derivation of one ends with the
operator read last while the reader begins with the operand read first.
The two meet in statements about what is still to come: whatever the loop
returns when it goes on from a phrase, the whole reader returns on the
phrase and what follows it (`chain_resumes`, `indexed_resumes`).

Main statement: what is read from a list of symbols is the sentence they
are, where that is nested at most `maxDepth` deep (`tree_eq_ok_iff`). As
the readers are functions, no symbols are two sentences
(`sentence_unique`).
-/
import Formula.Proofs.Expr.Soundness

namespace Formula

namespace Expr

/-- Every phrase that is nested at most `n` deep and ends where it does is
returned. -/
def Complete (p : Phrase) (n : Nat) (reader : Reader Tree) : Prop :=
  ∀ ⦃front rest : List Symbol⦄ ⦃t : Tree⦄, Derives p front t →
    t.depth ≤ n → p.Ends rest → Returns (reader (front ++ rest)) t rest

-- ============================================================ first symbols

/-- The parts that begin an operand. -/
def starters : List Part :=
  [.plus, .minus, .constant, .null, .variable, .leftParen]

/-- A phrase begins with an operand, or with `NOT` where it is loose
enough. -/
theorem Derives.head {p : Phrase} {ss : List Symbol} {t : Tree}
    (h : Derives p ss t) :
    ∃ s rest, ss = s :: rest
      ∧ (s.part ∈ starters
        ∨ s.part = .not ∧ (p = .negation ∨ p = .chain .logical)) := by
  induction h with
  | @operand k ss t _ ih =>
      obtain ⟨s, rest, hss, hs | ⟨hs, hp⟩⟩ := ih
      · exact ⟨s, rest, hss, Or.inl hs⟩
      · refine ⟨s, rest, hss, Or.inr ⟨hs, ?_⟩⟩
        cases k with
        | logical => exact Or.inr rfl
        | _ => rcases hp with hp | hp <;> cases hp
  | between _ _ _ ihl _ =>
      obtain ⟨s, rest, rfl, hs⟩ := ihl
      exact ⟨s, _, rfl, hs⟩
  | behind _ _ ihl =>
      obtain ⟨s, rest, rfl, hs⟩ := ihl
      exact ⟨s, _, rfl, hs⟩
  | comparison _ ih =>
      obtain ⟨s, rest, hss, hs | ⟨-, hp⟩⟩ := ih
      · exact ⟨s, rest, hss, Or.inl hs⟩
      · rcases hp with hp | hp <;> cases hp
  | not hs _ _ => exact ⟨_, _, rfl, Or.inr ⟨hs, Or.inl rfl⟩⟩
  | unsigned _ ih =>
      obtain ⟨s, rest, hss, hs | ⟨-, hp⟩⟩ := ih
      · exact ⟨s, rest, hss, Or.inl hs⟩
      · rcases hp with hp | hp <;> cases hp
  | plus hs _ _ => exact ⟨_, _, rfl, Or.inl (by rw [hs]; decide)⟩
  | minus hs _ _ => exact ⟨_, _, rfl, Or.inl (by rw [hs]; decide)⟩
  | index _ _ _ _ ihb _ =>
      obtain ⟨s, rest, rfl, hs⟩ := ihb
      exact ⟨s, _, rfl, hs⟩
  | constant hs => exact ⟨_, _, rfl, Or.inl (by rw [hs]; decide)⟩
  | null hs => exact ⟨_, _, rfl, Or.inl (by rw [hs]; decide)⟩
  | «variable» hs => exact ⟨_, _, rfl, Or.inl (by rw [hs]; decide)⟩
  | thunk hs _ _ => exact ⟨_, _, rfl, Or.inl (by rw [hs]; decide)⟩
  | call hs _ _ _ _ _ => exact ⟨_, _, rfl, Or.inl (by rw [hs]; decide)⟩
  | group ho _ _ _ => exact ⟨_, _, rfl, Or.inl (by rw [ho]; decide)⟩
  | array ho _ _ _ _ _ => exact ⟨_, _, rfl, Or.inl (by rw [ho]; decide)⟩

/-- No phrase begins with a closing parenthesis. -/
theorem Derives.head_ne_rightParen {p : Phrase} {s : Symbol}
    {ss : List Symbol} {t : Tree} (h : Derives p (s :: ss) t) :
    s.part ≠ .rightParen := by
  obtain ⟨s', rest, hss, hs⟩ := h.head
  injection hss with hss _
  subst hss
  rintro hclose
  rw [hclose] at hs
  rcases hs with hs | ⟨hs, -⟩
  · exact absurd hs (by decide)
  · cases hs

/-- No comparison begins with `NOT`. -/
theorem Derives.head_ne_not {s : Symbol} {ss : List Symbol} {t : Tree}
    (h : Derives (.chain .relational) (s :: ss) t) : s.part ≠ .not := by
  obtain ⟨s', rest, hss, hs⟩ := h.head
  injection hss with hss _
  subst hss
  rcases hs with hs | ⟨-, hp | hp⟩
  · intro hnot
    rw [hnot] at hs
    exact absurd hs (by decide)
  · cases hp
  · cases hp

-- =================================================================== chains

section

variable {k : Level} {n : Nat} {operand : Reader Tree}

/-- What is read on after a chain is read on the chain and what follows
it. -/
theorem chain_resumes (hop : Complete k.operand n operand)
    {front rest last : List Symbol} {t u : Tree}
    (ht : Derives (.chain k) front t) (hdepth : t.depth ≤ n)
    (hends : k.operand.Ends rest)
    (hmore : Returns (chainFrom k.joints operand t rest) u last) :
    Returns (chain k.joints operand (front ++ rest)) u last := by
  generalize hp : Phrase.chain k = p at ht
  induction ht generalizing rest with
  | operand ht _ =>
      injection hp with hk
      subst hk
      exact chain_returns.mpr ⟨_, _, hop ht hdepth hends, hmore⟩
  | @between k' ls ms rs s op l r _ hspelled hr ihl _ =>
      injection hp with hk
      subst hk
      have hnests : op.nests = 0 := Level.nests_of_spells hspelled
      rw [Tree.depth, hnests] at hdepth
      have hread : Returns (operand ((ms ++ (rs ++ rest)).drop ms.length))
          r rest := by
        rw [List.drop_left]
        exact hop hr (by omega) hends
      have hjoint := Level.joints_of_spells hspelled (rs ++ rest)
      rw [List.append_assoc, List.cons_append, List.append_assoc]
      exact ihl (by omega) (Phrase.ends_of_spells hspelled _)
        ((chainFrom_between_returns hjoint).mpr ⟨r, rest, hread, hmore⟩) rfl
  | @behind k' ls ms s op l _ hspelled ihl =>
      injection hp with hk
      subst hk
      have hnests : op.nests = 0 := Level.nests_of_spells hspelled
      rw [Tree.depth, hnests] at hdepth
      have hjoint := Level.joints_of_spells hspelled rest
      rw [List.append_assoc, List.cons_append]
      refine ihl (by omega) (Phrase.ends_of_spells hspelled _)
        ((chainFrom_behind_returns hjoint).mpr ?_) rfl
      rw [List.drop_left]
      exact hmore
  | _ => cases hp

/-- A chain of complete operands is complete. -/
theorem complete_chain (hop : Complete k.operand n operand) :
    Complete (.chain k) n (chain k.joints operand) := by
  intro front rest t ht hdepth hends
  refine chain_resumes hop ht hdepth (Phrase.ends_operand hends) ?_
  cases rest with
  | nil => exact chainFrom_nil_returns.mpr ⟨rfl, rfl⟩
  | cons s rest =>
      exact (chainFrom_none_returns (Phrase.joints_of_ends hends)).mpr
        ⟨rfl, rfl⟩

/-- Comparisons of complete primaries are complete. -/
theorem complete_relational {primary : Reader Tree}
    (h : Complete .primary n primary) :
    Complete (.chain .relational) n (relational primary) :=
  complete_chain (k := .relational) (complete_chain (k := .additive)
    (complete_chain (k := .multiplicative) (complete_chain (k := .power) h)))

end

namespace Rung

section

variable {n : Nat} {below : Rung}

-- ==================================================================== lists

/-- Items that are listed are read up to what closes them. -/
theorem complete_items (he : Complete (.chain .logical) n below.expression)
    {close : Symbol} (hclose : close.part = .rightParen)
    {items : List (List Symbol × Tree)} {ss rest : List Symbol}
    (hlisted : Listed (items.map Prod.fst) ss) (hall : ItemsAt n items) :
    Returns (below.items (ss ++ close :: rest)) (items.map Prod.snd)
      (close :: rest) := by
  have hcloser : close.part ∈ Phrase.closers := by
    rw [hclose]
    decide
  have hnoComma : close.part ≠ .comma := by
    rw [hclose]
    decide
  generalize hfronts : items.map Prod.fst = fronts at hlisted
  induction hlisted generalizing items with
  | one ss =>
      obtain ⟨i, rfl, rfl⟩ : ∃ i, items = [i] ∧ i.1 = ss := by
        obtain ⟨i, items', rfl, hi, hitems⟩ := List.map_eq_cons_iff.mp hfronts
        exact ⟨i, by rw [List.map_eq_nil_iff.mp hitems], hi⟩
      obtain ⟨ht, hdepth⟩ := hall i (List.mem_singleton.mpr rfl)
      exact items_returns.mpr ⟨i.2, close :: rest,
        he ht hdepth (Phrase.ends_of_closer _ hcloser _), [],
        (itemsFrom_other_returns hnoComma).mpr ⟨rfl, rfl⟩, rfl⟩
  | @more ss inner sss comma hcomma _ ih =>
      obtain ⟨i, items', rfl, rfl, hitems⟩ := List.map_eq_cons_iff.mp hfronts
      obtain ⟨ht, hdepth⟩ := hall i (List.mem_cons_self ..)
      have hends : (Phrase.chain .logical).Ends
          (comma :: (inner ++ close :: rest)) :=
        Phrase.ends_of_closer _ (by rw [hcomma]; decide) _
      obtain ⟨t, mid, htail, ts, hmore, hts⟩ := items_returns.mp
        (ih (fun j hj => hall j (List.mem_cons_of_mem _ hj)) hitems)
      rw [List.append_assoc, List.cons_append]
      refine items_returns.mpr ⟨i.2, _, he ht hdepth hends,
        items'.map Prod.snd, ?_, rfl⟩
      exact (itemsFrom_comma_returns hcomma).mpr
        ⟨t, mid, htail, ts, hmore, hts⟩

/-- Listed items and the parenthesis behind them are read. -/
theorem complete_closedItems
    (he : Complete (.chain .logical) n below.expression)
    {close : Symbol} (hclose : close.part = .rightParen)
    {items : List (List Symbol × Tree)} {ss rest : List Symbol}
    (hlisted : Listed (items.map Prod.fst) ss) (hall : ItemsAt n items) :
    Returns (below.closedItems (ss ++ close :: rest))
      (items.map Prod.snd) rest :=
  closedItems_returns.mpr
    ⟨close, hclose, complete_items he hclose hlisted hall⟩

/-- Listed arguments and the parenthesis behind them are read. -/
theorem complete_arguments
    (he : Complete (.chain .logical) n below.expression)
    {close : Symbol} (hclose : close.part = .rightParen)
    {items : List (List Symbol × Tree)} {ss rest : List Symbol}
    (hlisted : Listed (items.map Prod.fst) ss) (hall : ItemsAt n items) :
    Returns (below.arguments (ss ++ close :: rest))
      (items.map Prod.snd) rest := by
  have hread : Returns (below.closedItems (ss ++ close :: rest))
      (items.map Prod.snd) rest :=
    complete_closedItems he hclose hlisted hall
  obtain ⟨s, ss', rfl, hs⟩ : ∃ s ss', ss = s :: ss'
      ∧ s.part ≠ .rightParen := by
    obtain ⟨i, hi, more, hmore⟩ : ∃ i ∈ items, ∃ more, ss = i.1 ++ more := by
      generalize hfronts : items.map Prod.fst = fronts at hlisted
      cases hlisted with
      | one =>
          obtain ⟨i, items', rfl, hi, -⟩ := List.map_eq_cons_iff.mp hfronts
          exact ⟨i, List.mem_cons_self .., [], by simp [hi]⟩
      | more _ _ =>
          obtain ⟨i, items', rfl, hi, -⟩ := List.map_eq_cons_iff.mp hfronts
          exact ⟨i, List.mem_cons_self .., _, by rw [hi]⟩
    obtain ⟨s, first, hfirst, -⟩ := (hall i hi).1.head
    have hderives := (hall i hi).1
    rw [hfirst] at hderives hmore
    exact ⟨s, first ++ more, hmore, hderives.head_ne_rightParen⟩
  exact (arguments_other_returns hs).mpr hread

-- ================================================================ primaries

/-- What is read on after an atom with its indexes is read on these and
what follows them. -/
theorem indexed_resumes
    (he : Complete (.chain .logical) n below.expression)
    {front rest last : List Symbol} {t u : Tree}
    (ht : Derives .indexed front t) (hdepth : t.depth ≤ n + 1)
    (hrest : ∀ o rest', rest = o :: rest' → o.part ≠ .leftParen)
    (hmore : Returns (below.indexed t rest) u last) :
    Returns (primaryAbove below (front ++ rest)) u last := by
  have unsigned : ∀ {s : Symbol} {ss mid : List Symbol} {base : Tree},
      s.part ≠ .plus → s.part ≠ .minus →
      Returns (below.atom s ss) base mid →
      Returns (below.indexed base mid) u last →
      Returns (primaryAbove below (s :: ss)) u last :=
    fun hplus hminus hatom hnext =>
      (primaryAbove_other_returns hplus hminus).mpr ⟨_, _, hatom, hnext⟩
  generalize hp : Phrase.indexed = p at ht
  induction ht generalizing rest with
  | @constant s hs =>
      exact unsigned (by rw [hs]; decide) (by rw [hs]; decide)
        ((atom_constant_returns hs).mpr ⟨rfl, rfl⟩) hmore
  | @null s hs =>
      exact unsigned (by rw [hs]; decide) (by rw [hs]; decide)
        ((atom_null_returns hs).mpr ⟨rfl, rfl⟩) hmore
  | @«variable» s hs =>
      exact unsigned (by rw [hs]; decide) (by rw [hs]; decide)
        ((atom_variable_returns hs).mpr
          ((named_variable_returns hrest).mpr ⟨rfl, rfl⟩)) hmore
  | @thunk s o e hs ho hclose =>
      refine unsigned (by rw [hs]; decide) (by rw [hs]; decide)
        ((atom_variable_returns hs).mpr ?_) hmore
      exact (named_call_returns ho).mpr
        ⟨[], (arguments_close_returns hclose).mpr ⟨rfl, rfl⟩, rfl⟩
  | @call s o e ss items hs ho hlisted hall hclose _ =>
      rw [Tree.depth] at hdepth
      have hitems : ItemsAt n items := fun i hi =>
        ⟨hall i hi, Tree.depthAll_le_iff.mp (by omega) _
          (List.mem_map_of_mem hi)⟩
      rw [List.cons_append, List.cons_append, List.append_assoc]
      refine unsigned (by rw [hs]; decide) (by rw [hs]; decide)
        ((atom_variable_returns hs).mpr
          ((named_call_returns ho).mpr ⟨_, ?_, rfl⟩)) hmore
      exact complete_arguments he hclose hlisted hitems
  | @group o e ss t ho ht hclose _ =>
      rw [Tree.depth] at hdepth
      have hinner : t.depth ≤ n := by omega
      have hitems : ItemsAt n [(ss, t)] := by
        intro i hi
        obtain rfl := List.mem_singleton.mp hi
        exact ⟨ht, hinner⟩
      rw [List.cons_append, List.append_assoc]
      refine unsigned (by rw [ho]; decide) (by rw [ho]; decide)
        ((atom_group_returns ho).mpr ⟨[t], ?_, rfl⟩) hmore
      show Returns (below.closedItems (ss ++ e :: rest))
        ([(ss, t)].map Prod.snd) rest
      exact complete_closedItems he hclose (.one ss) hitems
  | @array o e ss items ho hlisted hlen hall hclose _ =>
      rw [Tree.depth] at hdepth
      have hitems : ItemsAt n items := fun i hi =>
        ⟨hall i hi, Tree.depthAll_le_iff.mp (by omega) _
          (List.mem_map_of_mem hi)⟩
      rw [List.cons_append, List.append_assoc]
      refine unsigned (by rw [ho]; decide) (by rw [ho]; decide)
        ((atom_group_returns ho).mpr ⟨items.map Prod.snd, ?_, ?_⟩) hmore
      · exact complete_closedItems he hclose hlisted hitems
      · cases items with
        | nil => exact absurd hlen (by decide)
        | cons i items =>
            cases items with
            | nil => exact absurd hlen (Nat.not_succ_le_self 1)
            | cons i' items => rfl
  | @index bs is s e b i hb hs hi hclose ihb _ =>
      rw [Tree.depth, Dyadic.nests] at hdepth
      have hread : Returns (below.expression (is ++ e :: rest)) i
          (e :: rest) :=
        he hi (by omega)
          (Phrase.ends_of_closer _ (by rw [hclose]; decide) _)
      rw [List.append_assoc, List.cons_append, List.append_assoc]
      refine ihb (by omega) ?_ ?_ rfl
      · intro o rest' ho
        injection ho with ho _
        rw [← ho, hs]
        decide
      · exact (indexed_bracket_returns hs).mpr
          ⟨i, e, rest, hclose, hread, hmore⟩
  | _ => cases hp

/-- Primaries above complete readers are complete, one rung higher. -/
theorem complete_primaryAbove (hp : Complete .primary n below.primary)
    (he : Complete (.chain .logical) n below.expression) :
    Complete .primary (n + 1) (primaryAbove below) := by
  intro front rest t ht hdepth hends
  cases ht with
  | unsigned ht =>
      refine indexed_resumes he ht hdepth ?_ ?_
      · intro o rest' hrest
        rw [hrest] at hends
        exact hends.1
      · cases rest with
        | nil => exact indexed_nil_returns.mpr ⟨rfl, rfl⟩
        | cons s rest =>
            exact (indexed_other_returns hends.2.1).mpr ⟨rfl, rfl⟩
  | plus hs ht =>
      rw [Tree.depth] at hdepth
      exact (primaryAbove_plus_returns hs).mpr
        ⟨_, hp ht (by omega) hends, rfl⟩
  | minus hs ht =>
      rw [Tree.depth, Monadic.nests] at hdepth
      exact (primaryAbove_minus_returns hs).mpr
        ⟨_, hp ht (by omega) hends, rfl⟩

-- ==================================================================== rungs

/-- Negations above complete readers are complete, one rung higher. -/
theorem complete_negationAbove {primary : Reader Tree}
    (hn : Complete .negation n below.negation)
    (hp : Complete .primary (n + 1) primary) :
    Complete .negation (n + 1) (negationAbove below primary) := by
  intro front rest t ht hdepth hends
  cases ht with
  | comparison ht =>
      refine (negationAbove_other_returns ?_).mpr
        (complete_relational hp ht hdepth hends)
      obtain ⟨s, front', rfl, -⟩ := ht.head
      intro o rest' ho
      injection ho with ho _
      rw [← ho]
      exact ht.head_ne_not
  | not hs ht =>
      rw [Tree.depth, Monadic.nests] at hdepth
      exact (negationAbove_not_returns hs).mpr
        ⟨_, hn ht (by omega) hends, rfl⟩

/-- Expressions on a rung with complete negations are complete. -/
theorem complete_expression {r : Rung}
    (h : Complete .negation n r.negation) :
    Complete (.chain .logical) n r.expression :=
  complete_chain (k := .logical) h

end

/-- The readers of every rung are complete for as many levels of
nesting. -/
theorem complete_ofDepth (n : Nat) :
    Complete .primary n (ofDepth n).primary
      ∧ Complete .negation n (ofDepth n).negation := by
  induction n with
  | zero =>
      -- no phrase is nested less deep than its atoms
      have hnone : ∀ {t : Tree}, ¬t.depth ≤ 0 := fun {t} h => by
        have := t.depth_pos
        omega
      exact ⟨fun _ _ _ _ hdepth _ => absurd hdepth hnone,
        fun _ _ _ _ hdepth _ => absurd hdepth hnone⟩
  | succ n ih =>
      have hprimary := complete_primaryAbove ih.1 (complete_expression ih.2)
      exact ⟨hprimary, complete_negationAbove ih.2 hprimary⟩

end Rung

-- ================================================================ sentences

/-- On a rung, the expressions that take all the symbols are the sentences
nested no deeper. -/
theorem expression_returns_iff {n : Nat} {ss : List Symbol} {t : Tree} :
    Returns ((Rung.ofDepth n).expression ss) t []
      ↔ Sentence ss t ∧ t.depth ≤ n := by
  constructor
  · intro h
    obtain ⟨front, rfl, ht, hdepth⟩ :=
      Rung.sound_expression (Rung.sound_ofDepth n).2 h
    rw [List.append_nil]
    exact ⟨ht, hdepth⟩
  · rintro ⟨ht, hdepth⟩
    have hread : Returns ((Rung.ofDepth n).expression (ss ++ [])) t [] :=
      Rung.complete_expression (Rung.complete_ofDepth n).2 ht hdepth trivial
    rw [List.append_nil] at hread
    exact hread

/-- No symbols are two sentences. -/
theorem sentence_unique {ss : List Symbol} {t u : Tree}
    (ht : Sentence ss t) (hu : Sentence ss u) : t = u := by
  have hreadt := expression_returns_iff.mpr
    ⟨ht, Nat.le_max_left t.depth u.depth⟩
  have hreadu := expression_returns_iff.mpr
    ⟨hu, Nat.le_max_right t.depth u.depth⟩
  obtain ⟨r, hr, rfl, -⟩ := hreadt
  obtain ⟨r', hr', rfl, -⟩ := hreadu
  rw [hr] at hr'
  injection hr' with hr'
  rw [hr']

/-- The tree of a list of symbols is the sentence they are. -/
theorem tree_eq_ok_iff {ss : List Symbol} {t : Tree} :
    tree ss = .ok t ↔ Sentence ss t ∧ t.depth ≤ maxDepth := by
  rw [← expression_returns_iff]
  unfold tree
  cases h : (Rung.ofDepth maxDepth).expression ss with
  | error halt => simp
  | ok r =>
      rw [returns_ok]
      cases hrest : r.rest with
      | nil => simp [hrest]
      | cons s rest => simp [hrest]

/-- Symbols compile exactly where they are a sentence that is nested at
most 64 deep, and what they compile to is what the nodes of that sentence
add, in postorder. No symbols are two sentences, so it is the only one
there is. -/
theorem compiles_iff_sentence (ss : List Symbol) :
    (∀ t u, Sentence ss t → Sentence ss u → t = u)
      ∧ ∀ code, (tree ss).map Tree.code = .ok code
        ↔ ∃ t, Sentence ss t ∧ t.depth ≤ 64
            ∧ t.postorder.flatMap Tree.own = code := by
  refine ⟨fun t u => sentence_unique, fun code => ?_⟩
  constructor
  · intro h
    cases ht : tree ss with
    | error fault =>
        rw [ht] at h
        cases h
    | ok t =>
        rw [ht] at h
        injection h with h
        obtain ⟨hsentence, hdepth⟩ := tree_eq_ok_iff.mp ht
        exact ⟨t, hsentence, hdepth, by rw [← Tree.code_eq_postorder, h]⟩
  · rintro ⟨t, hsentence, hdepth, rfl⟩
    rw [tree_eq_ok_iff.mpr ⟨hsentence, hdepth⟩, ← Tree.code_eq_postorder]
    rfl

end Expr

end Formula
