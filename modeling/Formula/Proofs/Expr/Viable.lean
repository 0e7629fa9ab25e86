/-
Where reading an expression fails. Main statement: the symbols in front of the
one that is blamed are the beginning of an expression, and if no symbol is at
fault but the end, then all of them are (`tree_blames`).

A beginning is `Viable` if it can be completed to a phrase. Each rule of the
grammar makes longer beginnings of shorter ones: what stands in front of the
last part must be whole, and that part need only have begun. The readers
follow the rules, and what they have read is whole by soundness; so where a
part breaks off in a beginning, the whole does (`Breaks`). This is proved
reader by reader, and then for the readers of every rung (`halts_ofDepth`).
-/
import Mathlib.Data.List.Nodup
import Formula.Proofs.Expr.Soundness

namespace Formula

namespace Expr

-- ============================================================ beginnings

/-- Whether symbols can be completed to a phrase. -/
def Viable (p : Phrase) (front : List Symbol) : Prop := ∃ more t, Derives p (front ++ more) t

/-- Whether symbols can be completed to a list of expressions with commas
between them. -/
def ListViable (front : List Symbol) : Prop :=
  ∃ more, ∃ items : List (List Symbol × Tree), Listed (items.map Prod.fst) (front ++ more)
    ∧ ∀ i ∈ items, Derives (.chain .logical) i.1 i.2

theorem Derives.viable {p : Phrase} {ss : List Symbol} {t : Tree} (h : Derives p ss t) :
    Viable p ss :=
  ⟨[], t, by rwa [List.append_nil]⟩

theorem Viable.of_append {p : Phrase} {front back : List Symbol} (h : Viable p (front ++ back)) :
    Viable p front := by
  obtain ⟨more, t, ht⟩ := h
  exact ⟨back ++ more, t, by rwa [← List.append_assoc]⟩

/-- Every phrase can be completed from nothing. -/
theorem viable_nil (p : Phrase) : Viable p [] := by
  let one : Symbol := ⟨.constant, .null, .origin⟩
  have hone : Derives .indexed [one] (.constant .null .origin) := .constant rfl
  cases p with
  | chain k => exact ⟨[one], _, hone.chain k⟩
  | negation => exact ⟨[one], _, .comparison (hone.chain .relational)⟩
  | primary => exact ⟨[one], _, .unsigned hone⟩
  | indexed => exact ⟨[one], _, hone⟩

section

variable {k : Level} {s o c : Symbol} {ss ls ms rs rest : List Symbol} {t l : Tree}

theorem Viable.operand (h : Viable k.operand ss) : Viable (.chain k) ss := by
  obtain ⟨more, t, ht⟩ := h
  exact ⟨more, t, .operand ht⟩

theorem Viable.between {op : Dyadic} (hl : Derives (.chain k) ls l)
    (hs : k.Spells (s :: ms) (.between op)) (h : Viable k.operand rs) :
    Viable (.chain k) (ls ++ s :: (ms ++ rs)) := by
  obtain ⟨more, t, ht⟩ := h
  exact ⟨more, _, by simpa using Derives.between hl hs ht⟩

theorem Viable.comparison (h : Viable (.chain .relational) ss) : Viable .negation ss := by
  obtain ⟨more, t, ht⟩ := h
  exact ⟨more, t, .comparison ht⟩

theorem Viable.not (hs : s.part = .not) (h : Viable .negation ss) : Viable .negation (s :: ss) := by
  obtain ⟨more, t, ht⟩ := h
  exact ⟨more, _, .not hs ht⟩

theorem Viable.unsigned (h : Viable .indexed ss) : Viable .primary ss := by
  obtain ⟨more, t, ht⟩ := h
  exact ⟨more, t, .unsigned ht⟩

theorem Viable.plus (hs : s.part = .plus) (h : Viable .primary ss) : Viable .primary (s :: ss) := by
  obtain ⟨more, t, ht⟩ := h
  exact ⟨more, _, .plus hs ht⟩

theorem Viable.minus (hs : s.part = .minus) (h : Viable .primary ss) :
    Viable .primary (s :: ss) := by
  obtain ⟨more, t, ht⟩ := h
  exact ⟨more, _, .minus hs ht⟩

/-- An index that has begun can be completed and its bracket closed. -/
theorem Viable.index (hbase : Derives .indexed ls l) (hs : s.part = .leftBracket)
    (h : Viable (.chain .logical) ss) : Viable .indexed (ls ++ s :: ss) := by
  obtain ⟨more, t, ht⟩ := h
  let close : Symbol := ⟨.rightBracket, .null, .origin⟩
  have hclose : close.part = .rightBracket := rfl
  exact ⟨more ++ [close], _, by simpa using Derives.index hbase hs ht hclose⟩

theorem Viable.item (h : Viable (.chain .logical) ss) : ListViable ss := by
  obtain ⟨more, t, ht⟩ := h
  exact ⟨more, [(ss ++ more, t)], .one _, by simpa using ht⟩

theorem ListViable.more (hfirst : Derives (.chain .logical) ls l) (hc : c.part = .comma)
    (h : ListViable rest) : ListViable (ls ++ c :: rest) := by
  obtain ⟨more, items, hlisted, hitems⟩ := h
  refine ⟨more, (ls, l) :: items, ?_, ?_⟩
  · rw [List.append_assoc]
    exact .more hc hlisted
  · rintro i (_ | ⟨_, hi⟩)
    · exact hfirst
    · exact hitems i hi

/-- A list that has begun can be completed in its parentheses. -/
theorem ListViable.group (ho : o.part = .leftParen) (h : ListViable ss) :
    Viable .indexed (o :: ss) := by
  obtain ⟨more, items, hlisted, hitems⟩ := h
  let close : Symbol := ⟨.rightParen, .null, .origin⟩
  have hall : Rung.ItemsAt (Tree.depthAll (items.map Prod.snd)) items := fun i hi =>
    ⟨hitems i hi, (Tree.depthAll_le_iff.1 (Nat.le_refl _)) i.2 (List.mem_map_of_mem hi)⟩
  have hclose : close.part = .rightParen := rfl
  have hgroup := (Rung.derives_grouped ho hlisted hall hclose).1
  exact ⟨more ++ [close], _, by simpa using hgroup⟩

/-- Arguments that have begun can be completed in their parentheses. -/
theorem ListViable.call (hs : s.part = .variable) (ho : o.part = .leftParen) (h : ListViable ss) :
    Viable .indexed (s :: o :: ss) := by
  obtain ⟨more, items, hlisted, hitems⟩ := h
  let close : Symbol := ⟨.rightParen, .null, .origin⟩
  have hclose : close.part = .rightParen := rfl
  have hcall := Derives.call hs ho hlisted hitems hclose
  exact ⟨more ++ [close], _, by simpa using hcall⟩

end

-- ==================================================== where it breaks off

/-- The codes of what a reader breaks off with. -/
def haltCodes : List Code :=
  [.errorAt, .missedCloseParenthesis, .missedCloseSquareBracket, .unexpectedEnd]

/-- What a reader breaks off with. -/
inductive HaltCause : Cause → Prop
  | endOfExpression : HaltCause .endOfExpression
  | nestedTooDeep (limit : Nat) : HaltCause (.nestedTooDeep limit)
  | wrongOperand (text : String) : HaltCause (.wrongOperand text)
  | missingParenthesis : HaltCause .missingParenthesis
  | missingBracket : HaltCause .missingBracket

theorem HaltCause.code_mem {cause : Cause} (h : HaltCause cause) : cause.code ∈ haltCodes := by
  cases h <;> simp [Cause.code, haltCodes]

/-- Whether reading broke off behind symbols of some sort, at the symbol after
them. Only if there is none, the end is said to be unexpected. -/
def Breaks (P : List Symbol → Prop) (ss : List Symbol) (halt : Halt) : Prop :=
  ∃ front rest, ss = front ++ rest ∧ P front ∧ halt.place = rest.head?.map Symbol.place
    ∧ HaltCause halt.cause ∧ (halt.cause.code = .unexpectedEnd → rest = [])

/-- A reader of phrases of some kind breaks off behind beginnings of them. -/
def Halts (p : Phrase) (reader : Reader Tree) : Prop :=
  ∀ ⦃ss : List Symbol⦄ ⦃halt : Halt⦄, reader ss = .error halt → Breaks (Viable p) ss halt

section

variable {P Q : List Symbol → Prop} {ss : List Symbol} {halt : Halt}

theorem Breaks.mono (h : Breaks P ss halt) (hPQ : ∀ front, P front → Q front) :
    Breaks Q ss halt := by
  obtain ⟨front, rest, hss, hfront, hhalt⟩ := h
  exact ⟨front, rest, hss, hPQ front hfront, hhalt⟩

/-- What was read before belongs to what is in front. -/
theorem Breaks.after (before : List Symbol) (h : Breaks Q ss halt)
    (hPQ : ∀ front, Q front → P (before ++ front)) : Breaks P (before ++ ss) halt := by
  obtain ⟨front, rest, rfl, hfront, hhalt⟩ := h
  exact ⟨before ++ front, rest, (List.append_assoc ..).symm, hPQ front hfront, hhalt⟩

/-- A result is the failure that it is if a value is made of it. -/
theorem map_eq_error {α β : Type} {x : Except Halt α} {f : α → β} :
    x.map f = .error halt ↔ x = .error halt := by
  cases x <;> simp [Except.map]

/-- What was expected and is missing breaks reading off at once. -/
theorem breaks_expect {part : Part} {cause : Cause} (hcause : HaltCause cause)
    (hend : cause.code ≠ .unexpectedEnd) (hP : P []) (h : expect part cause ss = .error halt) :
    Breaks P ss halt := by
  unfold expect at h
  split at h
  · cases h
    exact ⟨[], [], rfl, hP, rfl, hcause, fun _ => rfl⟩
  · next s rest =>
    split at h
    · cases h
    · cases h
      exact ⟨[], s :: rest, rfl, hP, rfl, hcause, fun h => absurd h hend⟩

end

-- ================================================================ chains

section

variable {k : Level} {n : Nat} {operand : Reader Tree} {halt : Halt}

/-- Reading on after a chain breaks off behind a longer one that has begun. -/
theorem breaks_chainFrom (hop : Halts k.operand operand) (hsound : Sound k.operand n operand)
    {ss front : List Symbol} {left : Tree} (hleft : Derives (.chain k) front left)
    (h : chainFrom k.joints operand left ss = .error halt) :
    Breaks (fun more => Viable (.chain k) (front ++ more)) ss halt := by
  have hsplit (s : Symbol) (ss : List Symbol) (m : Nat) :
      s :: ss = (s :: ss.take m) ++ ss.drop m := by
    rw [List.cons_append, List.take_append_drop]
  fun_induction chainFrom k.joints operand left ss generalizing front with
  | case1 left => cases h
  | case2 left s ss hj => cases h
  | case3 left s ss op m hj ih =>
      have hchain := Derives.behind hleft (Level.spells_of_joints hj)
      rw [hsplit s ss m]
      refine (ih hchain (map_eq_error.1 h)).after _ fun more hmore => ?_
      rwa [← List.append_assoc]
  | case4 left s ss op m hj halt' hright =>
      cases h
      rw [hsplit s ss m]
      exact (hop hright).after _ fun more hmore =>
        .between hleft (Level.spells_of_joints hj) hmore
  | case5 left s ss op m hj right hright ih =>
      obtain ⟨rs, hrs, hderives, -⟩ := hsound ⟨right, hright, rfl, rfl⟩
      have hchain := Derives.between hleft (Level.spells_of_joints hj) hderives
      have hbreaks := (ih hchain (map_eq_error.1 h)).after (P := fun more =>
        Viable (.chain k) (front ++ more)) (s :: (ss.take m ++ rs)) fun more hmore => by
          rwa [← List.append_assoc]
      rwa [List.cons_append, List.append_assoc, ← hrs, List.take_append_drop] at hbreaks

/-- A chain breaks off behind one that has begun. -/
theorem halts_chain (hop : Halts k.operand operand) (hsound : Sound k.operand n operand) :
    Halts (.chain k) (chain k.joints operand) := by
  intro ss halt h
  unfold chain at h
  split at h
  · next hfirst =>
    cases h
    exact (hop hfirst).mono fun _ => Viable.operand
  · next first hfirst =>
    obtain ⟨front, hss, hderives, -⟩ := hsound ⟨first, hfirst, rfl, rfl⟩
    rw [hss]
    exact (breaks_chainFrom hop hsound (.operand hderives) (map_eq_error.1 h)).after front
      fun _ hmore => hmore

/-- Comparisons are chains of chains of primaries. -/
theorem halts_relational {primary : Reader Tree} (hhalts : Halts .primary primary)
    (hsound : Sound .primary n primary) : Halts (.chain .relational) (relational primary) := by
  have hpower : Sound (.chain .power) n (chain powerJoints primary) :=
    sound_chain (k := .power) hsound
  have hmultiplicative : Sound (.chain .multiplicative) n
      (chain multiplicativeJoints (chain powerJoints primary)) :=
    sound_chain (k := .multiplicative) hpower
  have hadditive : Sound (.chain .additive) n
      (chain additiveJoints (chain multiplicativeJoints (chain powerJoints primary))) :=
    sound_chain (k := .additive) hmultiplicative
  exact halts_chain (k := .relational) (halts_chain (k := .additive)
    (halts_chain (k := .multiplicative) (halts_chain (k := .power) hhalts hsound) hpower)
    hmultiplicative) hadditive

end

namespace Rung

-- ================================================================= lists

section

variable {n : Nat} {below : Rung} {ss : List Symbol} {halt : Halt}

/-- Reading on after an item breaks off behind a list that has begun. -/
theorem breaks_itemsFrom {item : Reader Tree} (hitem : Halts (.chain .logical) item)
    (hsound : Sound (.chain .logical) n item) {first : List Symbol} {t : Tree}
    (hfirst : Derives (.chain .logical) first t) (h : itemsFrom item ss = .error halt) :
    Breaks (fun more => ListViable (first ++ more)) ss halt := by
  fun_induction itemsFrom item ss generalizing first t with
  | case1 => cases h
  | case2 s ss hs halt' hsecond =>
      cases h
      exact (hitem hsecond).after [s] fun _ hmore => hmore.item.more hfirst hs
  | case3 s ss hs second hsecond ih =>
      obtain ⟨front, hss, hderives, -⟩ := hsound ⟨second, hsecond, rfl, rfl⟩
      rw [hss]
      exact (ih hderives (map_eq_error.1 h)).after (s :: front) fun _ hmore =>
        hmore.more hfirst hs
  | case4 => cases h

/-- Items break off behind a list that has begun. -/
theorem breaks_items (hhalts : Halts (.chain .logical) below.expression)
    (hsound : Sound (.chain .logical) n below.expression) (h : below.items ss = .error halt) :
    Breaks ListViable ss halt := by
  unfold items at h
  split at h
  · next hfirst =>
    cases h
    exact (hhalts hfirst).mono fun _ => Viable.item
  · next first hfirst =>
    obtain ⟨front, hss, hderives, -⟩ := hsound ⟨first, hfirst, rfl, rfl⟩
    rw [hss]
    exact (breaks_itemsFrom hhalts hsound hderives (map_eq_error.1 h)).after front
      fun _ hmore => hmore

/-- What items are is a list. -/
theorem listViable_of_items {ts : List Tree} {rest : List Symbol}
    (hsound : Sound (.chain .logical) n below.expression)
    (h : Returns (below.items ss) ts rest) : ∃ front, ss = front ++ rest ∧ ListViable front := by
  obtain ⟨t, mid, ht, ts', hmore, -⟩ := items_returns.1 h
  obtain ⟨first, rfl, hfirst, hdepth⟩ := hsound ht
  obtain ⟨items, more, hlisted, rfl, -, hitems⟩ := sound_itemsFrom hsound hfirst hdepth hmore
  refine ⟨first ++ more, (List.append_assoc ..).symm, [], items, ?_, fun i hi => (hitems i hi).1⟩
  rwa [List.append_nil]

/-- Items whose parenthesis is not closed break off behind them. -/
theorem breaks_closedItems (hhalts : Halts (.chain .logical) below.expression)
    (hsound : Sound (.chain .logical) n below.expression)
    (h : below.closedItems ss = .error halt) : Breaks ListViable ss halt := by
  unfold closedItems at h
  split at h
  · next hitems =>
    cases h
    exact breaks_items hhalts hsound hitems
  · next r hitems =>
    split at h
    · next hclose =>
      cases h
      obtain ⟨front, hss, hlist⟩ := listViable_of_items hsound ⟨r, hitems, rfl, rfl⟩
      rw [hss]
      have hbreaks : Breaks (· = []) r.rest halt :=
        breaks_expect .missingParenthesis (by decide) rfl hclose
      exact hbreaks.after front fun _ hnone => by rwa [hnone, List.append_nil]
    · cases h

-- ================================================================ primaries

/-- A call breaks off behind one that has begun. -/
theorem breaks_named (hhalts : Halts (.chain .logical) below.expression)
    (hsound : Sound (.chain .logical) n below.expression) {s : Symbol} (hs : s.part = .variable)
    (h : below.named s ss = .error halt) : Breaks (Viable .indexed) (s :: ss) halt := by
  unfold named at h
  split at h
  · cases h
  · next o ss =>
    split at h
    · next ho =>
      have hclosed {ss : List Symbol} (h : below.closedItems ss = .error halt) :
          Breaks (Viable .indexed) (s :: o :: ss) halt :=
        (breaks_closedItems hhalts hsound h).after [s, o] fun _ hmore => hmore.call hs ho
      have hargs := map_eq_error.1 h
      unfold arguments at hargs
      split at hargs
      · exact hclosed hargs
      · split at hargs
        · cases hargs
        · exact hclosed hargs
    · cases h

/-- An atom breaks off behind one that has begun. -/
theorem breaks_atom (hhalts : Halts (.chain .logical) below.expression)
    (hsound : Sound (.chain .logical) n below.expression) {s : Symbol}
    (h : below.atom s ss = .error halt) : Breaks (Viable .indexed) (s :: ss) halt := by
  unfold atom at h
  split at h
  · cases h
  · cases h
  · next hs => exact breaks_named hhalts hsound hs h
  · next hs =>
    exact (breaks_closedItems hhalts hsound (map_eq_error.1 h)).after [s] fun _ hmore =>
      hmore.group hs
  · cases h
    exact ⟨[], s :: ss, rfl, viable_nil _, rfl, .wrongOperand _, fun h => by cases h⟩

/-- Indexes break off behind some that have begun. -/
theorem breaks_indexed (hhalts : Halts (.chain .logical) below.expression)
    (hsound : Sound (.chain .logical) n below.expression) {front : List Symbol} {base : Tree}
    (hbase : Derives .indexed front base) (h : below.indexed base ss = .error halt) :
    Breaks (fun more => Viable .indexed (front ++ more)) ss halt := by
  fun_induction indexed below base ss generalizing front with
  | case1 => cases h
  | case2 base s ss hs halt' hindex =>
      cases h
      exact (hhalts hindex).after [s] fun _ hmore => hmore.index hbase hs
  | case3 base s ss hs index hindex halt' hclose =>
      cases h
      obtain ⟨is, hss, hderives, -⟩ := hsound ⟨index, hindex, rfl, rfl⟩
      rw [hss]
      have hbreaks : Breaks (· = []) index.rest halt :=
        breaks_expect .missingBracket (by decide) rfl hclose
      exact hbreaks.after (s :: is) fun _ hnone => by
        rw [hnone, List.append_nil]
        exact hderives.viable.index hbase hs
  | case4 base s ss hs index hindex close hclose ih =>
      obtain ⟨is, hss, hderives, -⟩ := hsound ⟨index, hindex, rfl, rfl⟩
      obtain ⟨e, he, hrest⟩ := expect_returns.1 ⟨close, hclose, rfl, rfl⟩
      have hnext := Derives.index hbase hs hderives he
      have hbreaks := (ih hnext (map_eq_error.1 h)).after (P := fun more =>
        Viable .indexed (front ++ more)) (s :: (is ++ [e])) fun _ hmore => by
          rwa [← List.append_assoc]
      rw [hss, hrest]
      simpa using hbreaks
  | case5 => cases h

/-- Primaries above readers that break off behind beginnings do so too. -/
theorem halts_primaryAbove (hprimary : Halts .primary below.primary)
    (hhalts : Halts (.chain .logical) below.expression)
    (hsound : Sound (.chain .logical) n below.expression) :
    Halts .primary (primaryAbove below) := by
  intro ss halt h
  unfold primaryAbove at h
  split at h
  · cases h
    exact ⟨[], [], rfl, viable_nil _, rfl, .endOfExpression, fun _ => rfl⟩
  · next s ss =>
    split at h
    · next hs =>
      exact (hprimary (map_eq_error.1 h)).after [s] fun _ hmore => hmore.plus hs
    · next hs =>
      exact (hprimary (map_eq_error.1 h)).after [s] fun _ hmore => hmore.minus hs
    · split at h
      · next hatom =>
        cases h
        exact (breaks_atom hhalts hsound hatom).mono fun _ => Viable.unsigned
      · next base hatom =>
        obtain ⟨front, hss, hderives, -⟩ := sound_atom hsound ⟨base, hatom, rfl, rfl⟩
        rw [hss]
        exact (breaks_indexed hhalts hsound hderives (map_eq_error.1 h)).after front
          fun _ => Viable.unsigned

-- ==================================================================== rungs

/-- Negations above readers that break off behind beginnings do so too. -/
theorem halts_negationAbove {primary : Reader Tree} (hnegation : Halts .negation below.negation)
    (hprimary : Halts .primary primary) (hsound : Sound .primary n primary) :
    Halts .negation (negationAbove below primary) := by
  intro ss halt h
  unfold negationAbove at h
  split at h
  · exact (halts_relational hprimary hsound h).mono fun _ => Viable.comparison
  · next s ss =>
    split at h
    · next hs =>
      exact (hnegation (map_eq_error.1 h)).after [s] fun _ hmore => hmore.not hs
    · exact (halts_relational hprimary hsound h).mono fun _ => Viable.comparison

/-- On the floor, reading breaks off at once. -/
theorem halts_tooDeep (p : Phrase) : Halts p tooDeep := by
  intro ss halt h
  unfold tooDeep at h
  split at h
  · cases h
    exact ⟨[], [], rfl, viable_nil p, rfl, .endOfExpression, fun _ => rfl⟩
  · next s ss =>
    cases h
    exact ⟨[], s :: ss, rfl, viable_nil p, rfl, .nestedTooDeep _, fun h => by cases h⟩

/-- The readers of every rung break off behind beginnings. -/
theorem halts_ofDepth (n : Nat) :
    Halts .primary (ofDepth n).primary ∧ Halts .negation (ofDepth n).negation := by
  induction n with
  | zero => exact ⟨halts_tooDeep _, halts_tooDeep _⟩
  | succ n ih =>
      have hsound := sound_expression (sound_ofDepth n).2
      have hexpression : Halts (.chain .logical) (ofDepth n).expression :=
        halts_chain (k := .logical) ih.2 (sound_ofDepth n).2
      have hprimary := halts_primaryAbove ih.1 hexpression hsound
      exact ⟨hprimary, halts_negationAbove ih.2 hprimary (sound_ofDepth (n + 1)).1⟩

end

end Rung

-- ============================================================== the blame

/-- Whether a fault is reported at a place. -/
def ReportedAt (fault : Fault) (place : Place) : Prop :=
  fault.line = some place.line ∧ fault.column = some place.column

theorem reportedAt_atPlace {cause : Cause} {p q : Place} :
    ReportedAt (.atPlace cause p) q ↔ p = q := by
  cases p
  cases q
  simp [ReportedAt, Fault.atPlace]

/-- What a fault says of the symbols that it is reported for. -/
structure Blames (ss : List Symbol) (fault : Fault) : Prop where
  code : fault.cause.code ∈ [.errorAt, .errorNear, .missedCloseParenthesis,
    .missedCloseSquareBracket, .unexpectedEnd]
  /-- One of the symbols is blamed, if there are any. -/
  symbol : ss ≠ [] → ∃ front s rest, ss = front ++ s :: rest ∧ ReportedAt fault s.place
  /-- Those in front of it are the beginning of an expression. -/
  begun : ∀ front s rest, ss = front ++ s :: rest → ReportedAt fault s.place →
    ∃ more t, Sentence (front ++ more) t
  /-- They are a whole expression if something is left over. -/
  whole : fault.cause.code = .errorNear → ∀ front s rest, ss = front ++ s :: rest →
    ReportedAt fault s.place → ∃ t, Sentence front t
  /-- If the end is unexpected, all symbols are the beginning of an
  expression. -/
  broken : fault.cause.code = .unexpectedEnd → ∃ more t, Sentence (ss ++ more) t

/-- Where no place comes twice, a place says what is in front of it. -/
theorem front_eq {ss front front' rest rest' : List Symbol} {s s' : Symbol}
    (hplaces : (ss.map Symbol.place).Nodup) (h : ss = front ++ s :: rest)
    (h' : ss = front' ++ s' :: rest') (hs : s.place = s'.place) : front = front' := by
  subst h
  rw [List.map_append, List.map_cons, List.nodup_middle, List.nodup_cons, List.mem_append,
    not_or] at hplaces
  have hmap := congrArg (List.map Symbol.place) h'
  rw [List.map_append, List.map_cons, List.map_append, List.map_cons, ← hs,
    List.append_cons_inj_of_notMem hplaces.1.1 hplaces.1.2] at hmap
  have hlength : front.length = front'.length := by
    simpa using congrArg List.length hmap.1
  exact (List.append_inj h' hlength).1

/-- Reading a whole expression fails where it breaks off, or in front of a
symbol that is left. -/
theorem tree_cases {ss : List Symbol} {fault : Fault} (h : tree ss = .error fault) :
    (∃ halt : Halt, Breaks (Viable (.chain .logical)) ss halt ∧ fault = halt.fault ss)
      ∨ ∃ front s rest t, ss = front ++ s :: rest ∧ Sentence front t
        ∧ fault = .atPlace (.leftover s.value.text) s.place := by
  obtain ⟨-, hnegation⟩ := Rung.halts_ofDepth maxDepth
  have hsound := (Rung.sound_ofDepth maxDepth).2
  unfold tree at h
  split at h
  · next halt hhalt =>
    cases h
    exact .inl ⟨halt, halts_chain (k := .logical) hnegation hsound hhalt, rfl⟩
  · next r hr =>
    obtain ⟨front, hss, hderives, -⟩ := Rung.sound_expression hsound ⟨r, hr, rfl, rfl⟩
    split at h
    · cases h
    · next s rest hrest =>
      cases h
      exact .inr ⟨front, s, rest, r.value, hrest ▸ hss, hderives, rfl⟩

theorem blames_of_breaks {ss : List Symbol} {halt : Halt} (hplaces : (ss.map Symbol.place).Nodup)
    (h : Breaks (Viable (.chain .logical)) ss halt) : Blames ss (halt.fault ss) := by
  obtain ⟨front, rest, rfl, hviable, hplace, hcause, hend⟩ := h
  have hcode := hcause.code_mem
  have hcodes : ∀ code ∈ haltCodes, code ≠ .errorNear
      ∧ code ∈ [Code.errorAt, .errorNear, .missedCloseParenthesis, .missedCloseSquareBracket,
        .unexpectedEnd] := by decide
  have hbroken (hunexpected : halt.cause.code = .unexpectedEnd) :
      ∃ more t, Sentence (front ++ rest ++ more) t := by
    rw [hend hunexpected, List.append_nil]
    exact hviable
  cases rest with
  | nil =>
      -- all symbols were read, and the last one stands for the end
      rw [List.append_nil]
      have hlast (last : Symbol) (h : front.getLast? = some last) :
          halt.fault front = .atPlace halt.cause last.place := by
        rw [Halt.fault, hplace, h]
        rfl
      refine ⟨(hcodes _ hcode).2, fun hsome => ?_, ?_, fun hnear => absurd hnear (hcodes _ hcode).1,
        fun _ => hviable⟩
      · refine ⟨front.dropLast, front.getLast hsome, [],
          (List.dropLast_append_getLast hsome).symm, ?_⟩
        rw [hlast _ (List.getLast?_eq_some_getLast hsome), reportedAt_atPlace]
      · rintro front' s rest rfl -
        exact hviable.of_append
  | cons s rest =>
      have hfault : halt.fault (front ++ s :: rest) = .atPlace halt.cause s.place := by
        rw [Halt.fault, hplace]
        rfl
      rw [hfault]
      refine ⟨(hcodes _ hcode).2, fun _ => ⟨front, s, rest, rfl, reportedAt_atPlace.2 rfl⟩, ?_,
        fun hnear => absurd hnear (hcodes _ hcode).1, hbroken⟩
      intro front' s' rest' hss hs
      rw [← front_eq hplaces rfl hss (reportedAt_atPlace.1 hs)]
      exact hviable

theorem blames_of_leftover {front rest : List Symbol} {s : Symbol} {t : Tree}
    (hplaces : ((front ++ s :: rest).map Symbol.place).Nodup) (h : Sentence front t) :
    Blames (front ++ s :: rest) (.atPlace (.leftover s.value.text) s.place) := by
  have hfront (front' : List Symbol) (s' : Symbol) (rest' : List Symbol)
      (hss : front ++ s :: rest = front' ++ s' :: rest')
      (hs : ReportedAt (.atPlace (.leftover s.value.text) s.place) s'.place) : front' = front :=
    (front_eq hplaces rfl hss (reportedAt_atPlace.1 hs)).symm
  refine ⟨List.mem_cons_of_mem _ List.mem_cons_self,
    fun _ => ⟨front, s, rest, rfl, reportedAt_atPlace.2 rfl⟩, ?_, ?_, nofun⟩
  · intro front' s' rest' hss hs
    rw [hfront front' s' rest' hss hs]
    exact Derives.viable h
  · intro _ front' s' rest' hss hs
    rw [hfront front' s' rest' hss hs]
    exact ⟨t, h⟩

/-- Where reading symbols fails, those in front of the one that is blamed are
the beginning of an expression. Each symbol has a place of its own. -/
theorem tree_blames {ss : List Symbol} {fault : Fault} (hplaces : (ss.map Symbol.place).Nodup)
    (h : tree ss = .error fault) : Blames ss fault := by
  obtain ⟨halt, hbreaks, rfl⟩ | ⟨front, s, rest, t, rfl, hsentence, rfl⟩ := tree_cases h
  · exact blames_of_breaks hplaces hbreaks
  · exact blames_of_leftover hplaces hsentence

/-- Parentheses around nothing. -/
def hollow : List Symbol :=
  [⟨.leftParen, .string "(", ⟨1, 1⟩⟩, ⟨.rightParen, .string ")", ⟨1, 2⟩⟩]

theorem tree_blames_hollow :
    (hollow.map Symbol.place).Nodup
      ∧ tree hollow = .error (.atPlace (.wrongOperand ")") ⟨1, 2⟩)
      ∧ Blames hollow (.atPlace (.wrongOperand ")") ⟨1, 2⟩) :=
  ⟨by decide, rfl, tree_blames (by decide) rfl⟩

end Expr

end Formula
