/-
What a map from characters to values says, apart from how its spans are cut.
A character has the value of the last entry that covers it (`find?_ofList`),
and after any history the value of the latest assignment to it since the map
was cleared (`find?_after`).

Looking a character up halves the spans, and asks the first one that does not
end before it and no other. That this is enough rests on the order of the
spans (`Sorted`), which every assignment keeps: it leaves pieces of the spans
it overlaps (`Span.mem_without`), none of them empty and none reaching into the
new span, so that putting all in order by where they begin puts them apart.
-/
import Formula.Text.CharMap

namespace Formula

-- ================================================================ halving

section

variable {α : Type} {p : α → Bool} {xs : List α}

/-- Items that pass a test come before items that do not. -/
def Partitioned (p : α → Bool) (xs : List α) : Prop :=
  xs.Pairwise fun x y => p y = true → p x = true

/-- The items that pass are those before the first one that does not. -/
theorem any_getElem?_of_partitioned (h : Partitioned p xs) (i : Nat) :
    xs[i]?.any p = true ↔ i < xs.findIdx fun x => !p x := by
  induction xs generalizing i with
  | nil => simp
  | cons x xs ih =>
      obtain ⟨hx, htail⟩ := List.pairwise_cons.1 h
      rw [List.findIdx_cons]
      cases hp : p x with
      | true =>
          cases i with
          | zero => simp [hp]
          | succ i => simpa using ih htail i
      | false =>
          -- nothing behind an item that fails passes
          have hnone : ∀ y ∈ xs, p y = false := fun y hy =>
            Bool.eq_false_iff.2 fun hpy => by
              have := hx y hy hpy
              rw [hp] at this
              cases this
          cases i with
          | zero => simp [hp]
          | succ i =>
              cases hi : xs[i]? with
              | none => simp [hi]
              | some y => simp [hi, hnone y (List.mem_of_getElem? hi)]

/-- Halving between two positions finds what lies between them. -/
theorem partitionBetween_eq {lo hi k : Nat} (h : ∀ i, xs[i]?.any p = true ↔ i < k)
    (hlo : lo ≤ k) (hhi : k ≤ hi) : partitionBetween p xs lo hi = k := by
  fun_induction partitionBetween p xs lo hi with
  | case1 lo hi hlt mid hmid ih =>
      have := (h mid).1 hmid
      exact ih (by omega) hhi
  | case2 lo hi hlt mid hmid ih =>
      have := mt (h mid).2 hmid
      exact ih hlo (by omega)
  | case3 lo hi hle => omega

/-- Halving finds the first item that fails. -/
theorem partitionPoint_eq_findIdx (h : Partitioned p xs) :
    partitionPoint p xs = xs.findIdx fun x => !p x :=
  partitionBetween_eq (any_getElem?_of_partitioned h) (Nat.zero_le _) List.findIdx_le_length

end

-- ================================================================== pieces

namespace Span

variable {α : Type} {lo hi n : Nat} {s t : Span α} {spans : List (Span α)}

/-- What a span is to one that it was cut from: not empty, inside it, and
with its value. -/
structure Piece (s t : Span α) : Prop where
  lo : s.lo ≤ t.lo
  ends : t.lo ≤ t.hi
  hi : t.hi ≤ s.hi
  value : t.value = s.value

/-- Two spans that have no code point in common: one ends before the other
begins. -/
def Apart (s t : Span α) : Prop := s.hi < t.lo ∨ t.hi < s.lo

/-- What is left of a span are pieces of it that have none of the code
points that were taken out. -/
theorem mem_without (hs : s.lo ≤ s.hi) (ht : t ∈ s.without lo hi) :
    Piece s t ∧ (t.hi < lo ∨ hi < t.lo) := by
  unfold without at ht
  split at ht
  · next hapart =>
    cases List.mem_singleton.1 ht
    exact ⟨⟨Nat.le_refl _, hs, Nat.le_refl _, rfl⟩, hapart⟩
  · next hmeet =>
    rcases List.mem_append.1 ht with ht | ht
    · split at ht
      · next hbelow =>
        cases List.mem_singleton.1 ht
        exact ⟨⟨Nat.le_refl _, by dsimp only; omega, by dsimp only; omega, rfl⟩,
          Or.inl (by dsimp only; omega)⟩
      · cases ht
    · split at ht
      · next habove =>
        cases List.mem_singleton.1 ht
        exact ⟨⟨by dsimp only; omega, by dsimp only; omega, Nat.le_refl _, rfl⟩,
          Or.inr (by dsimp only; omega)⟩
      · cases ht

/-- The bounds of what is left of a span are its own, or next to the code
points that were taken out. -/
theorem bounds_of_mem_without (ht : t ∈ s.without lo hi) :
    (t.lo = s.lo ∨ t.lo = hi + 1) ∧ (t.hi = s.hi ∨ t.hi + 1 = lo) := by
  unfold without at ht
  split at ht
  · cases List.mem_singleton.1 ht
    exact ⟨Or.inl rfl, Or.inl rfl⟩
  · rcases List.mem_append.1 ht with ht | ht
    · split at ht
      · next hbelow =>
        cases List.mem_singleton.1 ht
        exact ⟨Or.inl rfl, Or.inr (by dsimp only; omega)⟩
      · cases ht
    · split at ht
      · cases List.mem_singleton.1 ht
        exact ⟨Or.inr rfl, Or.inl rfl⟩
      · cases ht

/-- A code point of a span that was not taken out is in one of the pieces
left. -/
theorem exists_mem_without (hlo : s.lo ≤ n) (hhi : n ≤ s.hi) (hn : n < lo ∨ hi < n) :
    ∃ t ∈ s.without lo hi, t.lo ≤ n ∧ n ≤ t.hi := by
  unfold without
  split
  · exact ⟨s, List.mem_singleton_self s, hlo, hhi⟩
  · rcases hn with hn | hn
    · rw [if_pos (by omega : s.lo < lo)]
      exact ⟨_, List.mem_append_left _ (List.mem_singleton_self _), hlo, by dsimp only; omega⟩
    · rw [if_pos (by omega : hi < s.hi)]
      exact ⟨_, List.mem_append_right _ (List.mem_singleton_self _), by dsimp only; omega, hhi⟩

/-- The pieces left of one span are apart. -/
theorem pairwise_without (h : lo ≤ hi) (s : Span α) : (s.without lo hi).Pairwise Apart := by
  unfold without
  split
  · exact List.pairwise_singleton _ _
  · split <;> split <;> simp [Apart]
    omega

theorem ofChars_ends (a b : Char) (v : α) : (ofChars a b v).lo ≤ (ofChars a b v).hi := by
  unfold ofChars
  dsimp only
  omega

theorem ofChars_code (a b : Char) (v : α) : (ofChars a b v).hi < 0x110000 := by
  have hcode (c : Char) : c.toNat < 0x110000 := by
    have := c.valid
    unfold UInt32.isValidChar Nat.isValidChar at this
    have hval : c.toNat = c.val.toNat := rfl
    omega
  have := hcode a
  have := hcode b
  unfold ofChars
  dsimp only
  omega

theorem mem_inOrder : t ∈ inOrder spans ↔ t ∈ spans := List.mem_mergeSort

/-- Spans that are not empty and apart from each other end before the next
begins once they are in order. -/
theorem pairwise_inOrder (hends : ∀ s ∈ spans, s.lo ≤ s.hi) (hapart : spans.Pairwise Apart) :
    (inOrder spans).Pairwise fun s t => s.hi < t.lo := by
  have hstill : (inOrder spans).Pairwise Apart :=
    (List.Perm.pairwise_iff Or.symm (List.mergeSort_perm _ _)).2 hapart
  have hbegin : (inOrder spans).Pairwise fun s t => s.lo ≤ t.lo := by
    refine List.Pairwise.imp of_decide_eq_true (List.pairwise_mergeSort ?_ ?_ spans)
    · intro s t u hst htu
      simp only [decide_eq_true_eq] at hst htu ⊢
      exact Nat.le_trans hst htu
    · intro s t
      simp only [Bool.or_eq_true, decide_eq_true_eq]
      exact Nat.le_total s.lo t.lo
  refine (hstill.and hbegin).imp_of_mem fun {s t} hs ht hst => ?_
  have := hends s (mem_inOrder.1 hs)
  have := hends t (mem_inOrder.1 ht)
  rcases hst with ⟨hlt | hlt, hle⟩
  · exact hlt
  · omega

end Span

namespace CharMap

variable {α : Type} {m : CharMap α} {a b c : Char} {v w : α} {new s : Span α}

-- ============================================================ the order

/-- Spans of code points in ascending order and apart from each other, none
of them empty. -/
structure Sorted (m : CharMap α) : Prop where
  codes : ∀ s ∈ m.spans, s.hi < 0x110000
  ends : ∀ s ∈ m.spans, s.lo ≤ s.hi
  apart : m.spans.Pairwise fun s t => s.hi < t.lo

theorem sorted_empty : (empty : CharMap α).Sorted where
  codes := by
    intro s hs
    cases hs
  ends := by
    intro s hs
    cases hs
  apart := List.Pairwise.nil

/-- The spans that end before a character come before the others. -/
theorem Sorted.partitioned (h : m.Sorted) (c : Char) :
    Partitioned (fun s => s.hi < c.toNat) m.spans := by
  refine h.apart.imp_of_mem fun {s t} _ ht hst hend => ?_
  have := h.ends t ht
  simp only [decide_eq_true_eq] at hend ⊢
  omega

/-- Looking up a character finds the value of the span it is in. -/
theorem find?_eq_some_iff (h : m.Sorted) :
    m.find? c = some v
      ↔ ∃ s ∈ m.spans, s.lo ≤ c.toNat ∧ c.toNat ≤ s.hi ∧ s.value = v := by
  unfold find?
  rw [partitionPoint_eq_findIdx (h.partitioned c), ← List.find?_eq_getElem?_findIdx]
  obtain ⟨spans⟩ := m
  obtain ⟨-, hends, hapart⟩ := h
  dsimp only at hends hapart ⊢
  induction spans with
  | nil => simp
  | cons s spans ih =>
      obtain ⟨hs, htail⟩ := List.pairwise_cons.1 hapart
      have hmore := ih (fun t ht => hends t (List.mem_cons_of_mem _ ht)) htail
      by_cases hc : c.toNat ≤ s.hi
      · -- the spans behind this one begin above the character
        have hbehind : ∀ t ∈ spans, ¬t.lo ≤ c.toNat := by
          intro t ht hlo
          have := hs t ht
          omega
        rw [List.find?_cons_of_pos (by simpa using hc)]
        constructor
        · intro hv
          obtain ⟨t, ht, rfl⟩ := Option.map_eq_some_iff.1 hv
          obtain ⟨hst, hlo⟩ := Option.filter_eq_some_iff.1 ht
          cases hst
          exact ⟨s, List.mem_cons_self .., of_decide_eq_true hlo, hc, rfl⟩
        · rintro ⟨t, ht, hlo, hhi, rfl⟩
          rcases List.mem_cons.1 ht with rfl | ht
          · exact Option.map_eq_some_iff.2
              ⟨t, Option.filter_eq_some_iff.2 ⟨rfl, decide_eq_true hlo⟩, rfl⟩
          · exact absurd hlo (hbehind t ht)
      · rw [List.find?_cons_of_neg (by simpa using hc), hmore]
        constructor
        · rintro ⟨t, ht, hin⟩
          exact ⟨t, List.mem_cons_of_mem _ ht, hin⟩
        · rintro ⟨t, ht, hlo, hhi, hv⟩
          rcases List.mem_cons.1 ht with rfl | ht
          · exact absurd hhi hc
          · exact ⟨t, ht, hlo, hhi, hv⟩

-- ============================================================== assignment

/-- Whether a character is between two others, whichever of them comes
first. -/
def between (a b c : Char) : Bool :=
  min a.toNat b.toNat ≤ c.toNat && c.toNat ≤ max a.toNat b.toNat

/-- A cut leaves the pieces of the spans before, and the new span. -/
theorem mem_cut : s ∈ m.cut new ↔ (∃ t ∈ m.spans, s ∈ t.without new.lo new.hi) ∨ s = new := by
  unfold cut
  rw [List.mem_append, List.mem_flatMap, List.mem_singleton]

/-- Cutting a span out of ordered spans leaves spans that are not empty. -/
theorem ends_of_mem_cut (h : m.Sorted) (hnew : new.lo ≤ new.hi) (hs : s ∈ m.cut new) :
    s.lo ≤ s.hi := by
  rcases mem_cut.1 hs with ⟨t, ht, hs⟩ | rfl
  · exact (Span.mem_without (h.ends t ht) hs).1.ends
  · exact hnew

/-- Cutting a span out of ordered spans leaves spans apart from each other,
and from the new one. -/
theorem pairwise_cut (h : m.Sorted) (hnew : new.lo ≤ new.hi) :
    (m.cut new).Pairwise Span.Apart := by
  refine List.pairwise_append.2 ⟨List.pairwise_flatMap.2 ⟨?_, ?_⟩, List.pairwise_singleton _ _, ?_⟩
  · intro s _
    exact Span.pairwise_without hnew s
  · refine h.apart.imp_of_mem fun {s t} hs ht hst x hx y hy => Or.inl ?_
    have := (Span.mem_without (h.ends s hs) hx).1.hi
    have := (Span.mem_without (h.ends t ht) hy).1.lo
    omega
  · intro x hx y hy
    obtain ⟨s, hs, hx⟩ := List.mem_flatMap.1 hx
    cases List.mem_singleton.1 hy
    exact (Span.mem_without (h.ends s hs) hx).2

/-- Cutting a span out of ordered spans and putting it among what is left
keeps the order. -/
theorem sorted_assign (h : m.Sorted) (a b : Char) (v : α) : (m.assign a b v).Sorted where
  codes s hs := by
    rcases mem_cut.1 (Span.mem_inOrder.1 hs) with ⟨t, ht, hs⟩ | rfl
    · exact Nat.lt_of_le_of_lt (Span.mem_without (h.ends t ht) hs).1.hi (h.codes t ht)
    · exact Span.ofChars_code a b v
  ends _ hs := ends_of_mem_cut h (Span.ofChars_ends a b v) (Span.mem_inOrder.1 hs)
  apart := Span.pairwise_inOrder (fun _ => ends_of_mem_cut h (Span.ofChars_ends a b v))
    (pairwise_cut h (Span.ofChars_ends a b v))

/-- An assignment counts for the characters it covers, and leaves the
others what they had. -/
theorem find?_assign (h : m.Sorted) :
    (m.assign a b v).find? c = if between a b c then some v else m.find? c := by
  refine Option.ext fun w => ?_
  rw [find?_eq_some_iff (sorted_assign h a b v)]
  by_cases hc : min a.toNat b.toNat ≤ c.toNat ∧ c.toNat ≤ max a.toNat b.toNat
  · rw [if_pos (by simpa [between] using hc)]
    constructor
    · rintro ⟨t, ht, hlo, hhi, rfl⟩
      rcases mem_cut.1 (Span.mem_inOrder.1 ht) with ⟨s, hs, ht⟩ | rfl
      · have hout := (Span.mem_without (h.ends s hs) ht).2
        simp only [Span.ofChars] at hout
        omega
      · rfl
    · intro hw
      cases hw
      exact ⟨_, Span.mem_inOrder.2 (mem_cut.2 (Or.inr rfl)), hc.1, hc.2, rfl⟩
  · rw [if_neg (by simpa [between] using hc), find?_eq_some_iff h]
    constructor
    · rintro ⟨t, ht, hlo, hhi, rfl⟩
      rcases mem_cut.1 (Span.mem_inOrder.1 ht) with ⟨s, hs, ht⟩ | rfl
      · have hpiece := (Span.mem_without (h.ends s hs) ht).1
        exact ⟨s, hs, Nat.le_trans hpiece.lo hlo, Nat.le_trans hhi hpiece.hi, hpiece.value.symm⟩
      · exact absurd ⟨hlo, hhi⟩ hc
    · rintro ⟨s, hs, hlo, hhi, rfl⟩
      have hn : c.toNat < min a.toNat b.toNat ∨ max a.toNat b.toNat < c.toNat := by omega
      obtain ⟨t, ht, hin⟩ := Span.exists_mem_without hlo hhi hn
      exact ⟨t, Span.mem_inOrder.2 (mem_cut.2 (Or.inl ⟨s, hs, ht⟩)), hin.1, hin.2,
        (Span.mem_without (h.ends s hs) ht).1.value⟩

-- ========================================================= many entries

/-- Assigning in turn keeps the order, and asks the entries before the
map. -/
theorem find?_foldl_assign (entries : List (Char × Char × α)) (h : m.Sorted) :
    (entries.foldl (fun m e => m.assign e.1 e.2.1 e.2.2) m).find? c
      = ((entries.reverse.find? fun e => between e.1 e.2.1 c).map fun e => e.2.2).or
          (m.find? c) := by
  induction entries generalizing m with
  | nil => rfl
  | cons e entries ih =>
      rw [List.foldl_cons, ih (sorted_assign h ..), find?_assign h,
        List.reverse_cons, List.find?_append]
      cases hfound : entries.reverse.find? fun e => between e.1 e.2.1 c with
      | some found => rfl
      | none =>
          by_cases hc : between e.1 e.2.1 c
          · simp [hc]
          · simp [hc]

/-- The last entry that covers a character counts. -/
theorem find?_ofList (entries : List (Char × Char × α)) (c : Char) :
    (ofList entries).find? c
      = (entries.reverse.find? fun e => between e.1 e.2.1 c).map fun e => e.2.2 := by
  unfold ofList
  rw [find?_foldl_assign entries sorted_empty, find?_empty, Option.or_none]

-- =============================================================== histories

/-- What is done to a map. -/
inductive Change (α : Type) where
  | assign (a b : Char) (value : α)
  | clear

/-- Whether a change keeps what was assigned before. -/
def Change.keeps : Change α → Bool
  | .assign _ _ _ => true
  | .clear => false

/-- The value that a change assigns to a character, if it does. -/
def Change.valueAt? (c : Char) : Change α → Option α
  | .assign a b v => if between a b c then some v else none
  | .clear => none

/-- A map after some changes, the latest of them first. -/
def after : List (Change α) → CharMap α
  | [] => empty
  | .assign a b v :: earlier => (after earlier).assign a b v
  | .clear :: _ => empty

/-- The value of the latest assignment that covers a character, of those
since the map was last cleared. -/
def latest? (c : Char) (history : List (Change α)) : Option α :=
  (history.takeWhile Change.keeps).findSome? (Change.valueAt? c)

theorem sorted_after (history : List (Change α)) : (after history).Sorted := by
  induction history with
  | nil => exact sorted_empty
  | cons change earlier ih =>
      cases change with
      | assign a b v => exact sorted_assign ih a b v
      | clear => exact sorted_empty

theorem find?_after_eq_latest? (history : List (Change α)) (c : Char) :
    (after history).find? c = latest? c history := by
  induction history with
  | nil => exact find?_empty c
  | cons change earlier ih =>
      cases change with
      | clear => exact find?_empty c
      | assign a b v =>
          have hlatest : latest? c (.assign a b v :: earlier)
              = ((Change.assign a b v).valueAt? c).or (latest? c earlier) := by
            unfold latest?
            rw [List.takeWhile_cons_of_pos rfl, List.findSome?_cons]
            cases (Change.assign a b v).valueAt? c <;> rfl
          rw [hlatest, after, find?_assign (sorted_after earlier), ih, Change.valueAt?]
          split <;> rfl

/-- After every history a map says of each character what the latest
assignment that covers it said, if one does since the map was last cleared.
Its spans are in order, and for every character those that end before it come
first, so that halving them finds the first of the others. Cutting the characters of a new
assignment out of a span leaves pieces of it: the bounds that this computes
are within the span, and exact. -/
theorem find?_after (history : List (Change α)) :
    (∀ c, (after history).find? c = latest? c history)
    ∧ (after history).Sorted
    ∧ (∀ c : Char, Partitioned (fun s => s.hi < c.toNat) (after history).spans
        ∧ partitionPoint (fun s => s.hi < c.toNat) (after history).spans
          = (after history).spans.findIdx fun s => !decide (s.hi < c.toNat))
    ∧ ∀ (a b : Char) (v : α), ∀ s ∈ (after history).spans,
        ∀ t ∈ s.without (Span.ofChars a b v).lo (Span.ofChars a b v).hi,
          s.Piece t
          ∧ (t.lo = s.lo ∨ t.lo = (Span.ofChars a b v).hi + 1)
          ∧ (t.hi = s.hi ∨ t.hi + 1 = (Span.ofChars a b v).lo) := by
  have hsorted := sorted_after history
  refine ⟨find?_after_eq_latest? history, hsorted, fun c => ?_, fun a b v s hs t ht => ?_⟩
  · exact ⟨hsorted.partitioned c, partitionPoint_eq_findIdx (hsorted.partitioned c)⟩
  · exact ⟨(Span.mem_without (hsorted.ends s hs) ht).1, Span.bounds_of_mem_without ht⟩

/-- A word character in the middle of the letters, which are assigned the
wrong way round, after all was cleared; and the letters before it cut once
more. -/
theorem find?_after_split :
    let history : List (Change String) :=
      [.assign 'm' 'm' "special", .assign 'z' 'a' "word", .clear, .assign '\x00' '\ufffe' "symbol"]
    ((after history).find? 'l' = some "word" ∧ (after history).find? 'm' = some "special"
      ∧ (after history).find? '+' = none)
    ∧ ⟨97, 108, "word"⟩ ∈ (after history).spans
    ∧ ⟨100, 108, "word"⟩ ∈ Span.without 95 99 ⟨97, 108, "word"⟩
    ∧ Span.Piece (⟨97, 108, "word"⟩ : Span String) ⟨100, 108, "word"⟩ := by
  intro history
  obtain ⟨hfind, -, -, hcut⟩ := find?_after history
  have hletters : (⟨97, 122, "word"⟩ : Span String) ∈ (after history.tail).spans :=
    Span.mem_inOrder.2 (mem_cut.2 (Or.inr rfl))
  have hbefore : (⟨97, 108, "word"⟩ : Span String) ∈ (after history).spans :=
    Span.mem_inOrder.2 (mem_cut.2 (Or.inl ⟨_, hletters, by decide⟩))
  have hpiece : (⟨100, 108, "word"⟩ : Span String) ∈ Span.without 95 99 ⟨97, 108, "word"⟩ := by
    decide
  refine ⟨⟨?_, ?_, ?_⟩, hbefore, hpiece, (hcut '_' 'c' "" _ hbefore _ hpiece).1⟩
  · rw [hfind]
    decide
  · rw [hfind]
    decide
  · rw [hfind]
    decide

-- ================================================================= ranges

theorem between_of_le (h : a ≤ b) : between a b c = true ↔ a ≤ c ∧ c ≤ b := by
  have hab : a.toNat ≤ b.toNat := h
  unfold between
  rw [Nat.min_eq_left hab, Nat.max_eq_right hab, Bool.and_eq_true, decide_eq_true_iff,
    decide_eq_true_iff]
  exact Iff.rfl

theorem between_self : between a a c = true ↔ c = a := by
  rw [between_of_le (Nat.le_refl _)]
  constructor
  · rintro ⟨hac, hca⟩
    exact Char.toNat_inj.1 (Nat.le_antisymm hca hac)
  · rintro rfl
    exact ⟨Nat.le_refl _, Nat.le_refl _⟩

/-- Whether a character is in one of some ranges. -/
def covers (ranges : List (Char × Char)) (c : Char) : Bool :=
  ranges.any fun r => between r.1 r.2 c

/-- One value for several ranges counts for the characters they cover. -/
theorem find?_ofList_ranges (entries : List (Char × Char × α)) (ranges : List (Char × Char))
    (v : α) (c : Char) :
    (ofList (entries ++ ranges.map fun r => (r.1, r.2, v))).find? c
      = if covers ranges c then some v else (ofList entries).find? c := by
  rw [find?_ofList, find?_ofList, List.reverse_append, List.find?_append]
  cases hfound : (ranges.map fun r => (r.1, r.2, v)).reverse.find?
      fun e => between e.1 e.2.1 c with
  | some e =>
      have hbetween := List.find?_some hfound
      obtain ⟨r, hr, rfl⟩ := List.mem_map.1
        (List.mem_reverse.1 (List.mem_of_find?_eq_some hfound))
      have hcovers : covers ranges c = true := List.any_eq_true.2 ⟨r, hr, hbetween⟩
      rw [if_pos hcovers]
      rfl
  | none =>
      have hnone : ¬covers ranges c := by
        intro hcovers
        obtain ⟨r, hr, hbetween⟩ := List.any_eq_true.1 hcovers
        have hmem : (r.1, r.2, v) ∈ (ranges.map fun r => (r.1, r.2, v)).reverse :=
          List.mem_reverse.2 (List.mem_map.2 ⟨r, hr, rfl⟩)
        exact List.find?_eq_none.1 hfound _ hmem hbetween
      rw [if_neg hnone]
      rfl

end CharMap

/-- A class of ranges holds the characters that they cover. -/
theorem CharClass.contains_ofRanges (ranges : List (Char × Char)) (c : Char) :
    (CharClass.ofRanges ranges).contains c = CharMap.covers ranges c := by
  have hranges := CharMap.find?_ofList_ranges ([] : List (Char × Char × Bool)) ranges true c
  rw [List.nil_append] at hranges
  unfold CharClass.contains CharClass.ofRanges
  rw [hranges]
  cases CharMap.covers ranges c <;> rfl

end Formula
