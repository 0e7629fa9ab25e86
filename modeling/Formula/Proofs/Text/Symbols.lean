/-
What a letter tree says, apart from how its branches stand. Registering a
symbol changes what that symbol stands for and nothing else
(`registered?_insert`), so a tree says of each symbol what it was registered
for last (`registered?_ofList`).

Matching finds the longest of the symbols at the front of some characters
(`longest?_cases`). A cursor that reads on while the tree does, and is then put
back, ends up right behind that symbol (`longestMatch_eq`).
-/
import Formula.Proofs.Text.Position
import Formula.Text.Symbols

namespace Formula

namespace Symbols

variable {α : Type}

/-- What the registered symbols stand for. -/
def values : Symbols α → List α
  | .leaf => []
  | .branch _ here longer beside => here.toList ++ (longer.values ++ beside.values)

/-- A match stands for what a symbol is registered for. -/
theorem mem_values_of_longest? {t : Symbols α} {cs : List Char} {n : Nat} {v : α}
    (h : t.longest? cs = some (n, v)) : v ∈ t.values := by
  fun_induction longest? t cs generalizing n v with
  | case1 => cases h
  | case2 => cases h
  | case3 here longer beside c r m w hlonger ih =>
      cases h
      simp [values, ih hlonger]
  | case4 =>
      obtain ⟨w, hw, hv⟩ := Option.map_eq_some_iff.1 h
      cases hv
      simp [values, hw]
  | case5 _ _ _ _ _ _ _ ih => simp [values, ih h]

theorem values_single (value : α) (c : Char) (cs : List Char) :
    (single value c cs).values = [value] := by
  induction cs generalizing c with
  | nil => rfl
  | cons d r ih => simp [single, values, ih]

theorem mem_values_insertCons {t : Symbols α} {value w : α} {c : Char} {cs : List Char}
    (h : w ∈ (t.insertCons value c cs).values) : w = value ∨ w ∈ t.values := by
  fun_induction insertCons value c cs t with
  | case1 c cs =>
      rw [values_single] at h
      exact .inl (List.mem_singleton.1 h)
  | case2 here longer beside c =>
      simp only [values, Option.toList_some, List.mem_append, List.mem_singleton] at h ⊢
      rcases h with h | h
      · exact .inl h
      · exact .inr (.inr h)
  | case3 here longer beside c d r ih =>
      simp only [values, List.mem_append] at h ⊢
      rcases h with h | h | h
      · exact .inr (.inl h)
      · exact (ih h).imp_right fun h => .inr (.inl h)
      · exact .inr (.inr (.inr h))
  | case4 c cs b here longer beside hne ih =>
      simp only [values, List.mem_append] at h ⊢
      rcases h with h | h | h
      · exact .inr (.inl h)
      · exact .inr (.inr (.inl h))
      · exact (ih h).imp_right fun h => .inr (.inr h)

/-- Registering a symbol adds what it stands for and nothing else. -/
theorem mem_values_insert {t : Symbols α} {value w : α} {symbol : List Char}
    (h : w ∈ (t.insert symbol value).values) : w = value ∨ w ∈ t.values := by
  cases symbol with
  | nil => exact .inr h
  | cons c cs => exact mem_values_insertCons h

/-- Registering in turn adds what the symbols stand for. -/
theorem mem_values_foldl_insert {symbols : List (String × α)} {t : Symbols α} {w : α}
    (h : w ∈ (symbols.foldl (fun t s => t.insert s.1.toList s.2) t).values) :
    w ∈ t.values ∨ ∃ s ∈ symbols, s.2 = w := by
  induction symbols generalizing t with
  | nil => exact .inl h
  | cons s symbols ih =>
      rcases ih h with h | ⟨u, hu, hw⟩
      · rcases mem_values_insert h with rfl | h
        · exact .inr ⟨s, List.mem_cons_self .., rfl⟩
        · exact .inl h
      · exact .inr ⟨u, List.mem_cons_of_mem _ hu, hw⟩

/-- All that registered symbols stand for was registered. -/
theorem mem_of_mem_values_ofList {symbols : List (String × α)} {w : α}
    (h : w ∈ (ofList symbols).values) : ∃ s ∈ symbols, s.2 = w := by
  rcases mem_values_foldl_insert h with h | h
  · cases h
  · exact h

-- ============================================================== registering

/-- What a symbol is registered for. -/
def registered? : Symbols α → List Char → Option α
  | .leaf, _ => none
  | .branch _ _ _ _, [] => none
  | .branch b here longer beside, c :: cs =>
    if c = b then if cs = [] then here else registered? longer cs
    else registered? beside (c :: cs)

@[simp] theorem registered?_nil (t : Symbols α) : t.registered? [] = none := by
  cases t <;> rfl

theorem registered?_single (value : α) (c : Char) (cs w : List Char) :
    (single value c cs).registered? w = if w = c :: cs then some value else none := by
  induction cs generalizing c w with
  | nil =>
      cases w with
      | nil => rfl
      | cons d w =>
          simp only [single, registered?, List.cons.injEq]
          by_cases hd : d = c <;> by_cases hw : w = [] <;> simp [hd, hw]
  | cons d r ih =>
      cases w with
      | nil => rfl
      | cons e w =>
          simp only [single, registered?, List.cons.injEq, ih]
          by_cases he : e = c <;> by_cases hw : w = [] <;> simp [he, hw]

theorem registered?_insertCons (t : Symbols α) (value : α) (c : Char) (cs w : List Char) :
    (t.insertCons value c cs).registered? w
      = if w = c :: cs then some value else t.registered? w := by
  fun_induction insertCons value c cs t generalizing w with
  | case1 c cs => exact registered?_single value c cs w
  | case2 c here longer beside =>
      cases w with
      | nil => rfl
      | cons e w =>
          simp only [registered?, List.cons.injEq]
          by_cases he : e = c <;> by_cases hw : w = [] <;> simp [he, hw]
  | case3 c here longer beside d r ih =>
      cases w with
      | nil => rfl
      | cons e w =>
          simp only [registered?, List.cons.injEq, ih]
          by_cases he : e = c <;> by_cases hw : w = [] <;> simp [he, hw]
  | case4 c cs b here longer beside hne ih =>
      cases w with
      | nil => rfl
      | cons e w =>
          simp only [registered?, ih, List.cons.injEq]
          by_cases he : e = b
          · subst he
            have hec : e ≠ c := fun h => hne h.symm
            simp [hec]
          · simp [he]

/-- Registering a symbol changes what it stands for, and nothing else. -/
theorem registered?_insert (t : Symbols α) (value : α) {symbol w : List Char} (hw : w ≠ []) :
    (t.insert symbol value).registered? w
      = if w = symbol then some value else t.registered? w := by
  cases symbol with
  | nil => rw [if_neg hw, insert]
  | cons c cs => exact registered?_insertCons t value c cs w

/-- What a symbol was registered for last. -/
def lastOf (symbols : List (String × α)) (w : List Char) : Option α :=
  (symbols.reverse.find? fun s => s.1.toList = w).map Prod.snd

/-- A tree says of each symbol what it was registered for last. -/
theorem registered?_ofList (symbols : List (String × α)) {w : List Char} (hw : w ≠ []) :
    (ofList symbols).registered? w = lastOf symbols w := by
  suffices hfold : ∀ t : Symbols α,
      (symbols.foldl (fun t s => t.insert s.1.toList s.2) t).registered? w
        = (lastOf symbols w).or (t.registered? w) by
    have hleaf := hfold .leaf
    rw [show (leaf : Symbols α).registered? w = none from rfl, Option.or_none] at hleaf
    exact hleaf
  unfold lastOf
  induction symbols with
  | nil => intro t; rfl
  | cons s symbols ih =>
      intro t
      rw [List.foldl_cons, ih, registered?_insert t s.2 hw, List.reverse_cons, List.find?_append]
      cases symbols.reverse.find? fun s => s.1.toList = w with
      | some found => rfl
      | none =>
          by_cases hs : w = s.1.toList
          · simp [← hs]
          · simp [hs, Ne.symm hs]

-- ================================================================= matching

/-- Matching finds a symbol at the front than which none there is longer, or
there is none at the front. -/
theorem longest?_cases (t : Symbols α) (cs : List Char) :
    (∃ n v, t.longest? cs = some (n, v) ∧ n ≤ cs.length ∧ t.registered? (cs.take n) = some v
        ∧ ∀ m, n < m → m ≤ cs.length → t.registered? (cs.take m) = none)
      ∨ (t.longest? cs = none ∧ ∀ m, t.registered? (cs.take m) = none) := by
  fun_induction longest? t cs with
  | case1 => exact Or.inr ⟨rfl, fun _ => rfl⟩
  | case2 => exact Or.inr ⟨rfl, fun m => by simp⟩
  | case3 here longer beside c r n v hlonger ih =>
      rcases ih with ⟨n', v', hsome, hle, hreg, hmax⟩ | ⟨hnone, -⟩
      · rw [hlonger] at hsome
        cases hsome
        have hne : r.take n ≠ [] := by
          intro hnil
          rw [hnil, registered?_nil] at hreg
          cases hreg
        refine Or.inl ⟨n + 1, v, rfl, Nat.succ_le_succ hle, ?_, fun m hm hmle => ?_⟩
        · simp [registered?, hne, hreg]
        · obtain ⟨m, rfl⟩ : ∃ i, m = i + 1 := ⟨m - 1, by omega⟩
          have hmore := hmax m (by omega) (Nat.le_of_succ_le_succ hmle)
          have hne' : r.take m ≠ [] := List.ne_nil_of_length_pos (by
            rw [List.length_take]
            rw [List.length_cons] at hmle
            omega)
          simp [registered?, hne', hmore]
      · rw [hlonger] at hnone
        cases hnone
  | case4 here longer beside c r hlonger ih =>
      have hbeyond : ∀ m, longer.registered? (r.take m) = none := by
        rcases ih with ⟨_, _, hsome, -⟩ | ⟨-, hnone⟩
        · rw [hlonger] at hsome
          cases hsome
        · exact hnone
      cases here with
      | none =>
          refine Or.inr ⟨rfl, fun m => ?_⟩
          cases m with
          | zero => exact registered?_nil _
          | succ m => simp [registered?, hbeyond]
      | some v =>
          refine Or.inl ⟨1, v, rfl, by simp, by simp [registered?], fun m hm hmle => ?_⟩
          obtain ⟨m, rfl⟩ : ∃ i, m = i + 1 := ⟨m - 1, by omega⟩
          have hne : r.take m ≠ [] := List.ne_nil_of_length_pos (by
            rw [List.length_take]
            rw [List.length_cons] at hmle
            omega)
          simp [registered?, hne, hbeyond]
  | case5 b here longer beside c r hne ih =>
      -- the branch says nothing of symbols that begin with another character
      have hskip : ∀ m, (branch b here longer beside).registered? ((c :: r).take m)
          = beside.registered? ((c :: r).take m) := by
        intro m
        cases m with
        | zero => simp
        | succ m => simp [registered?, hne]
      simpa only [hskip] using ih

/-- Reading on at a cursor passes the characters that are followed, and
remembers what matching them finds. -/
theorem follow_eq (t : Symbols α) (f : Followed α) :
    ∃ k, k ≤ f.cursor.rest.length
      ∧ (t.follow f).read = f.read ++ f.cursor.rest.take k
      ∧ (t.follow f).cursor = f.cursor.skip k
      ∧ (t.follow f).best
        = ((t.longest? f.cursor.rest).map fun m => (f.read.length + m.1, m.2)).or f.best
      ∧ ∀ m ∈ t.longest? f.cursor.rest, m.1 ≤ k := by
  fun_induction follow t f with
  | case1 f => exact ⟨0, Nat.zero_le _, by simp, rfl, by simp [longest?], by simp [longest?]⟩
  | case2 b here longer beside f hpeek =>
      have hrest : f.cursor.rest = [] := List.head?_eq_none_iff.1 hpeek
      exact ⟨0, Nat.zero_le _, by simp, rfl, by simp [longest?, hrest], by simp [longest?, hrest]⟩
  | case3 here longer beside f c hpeek read ih =>
      obtain ⟨r, hrest⟩ : ∃ r, f.cursor.rest = c :: r := List.head?_eq_some_iff.1 hpeek
      have hafter : f.cursor.advance.rest = r := by rw [Cursor.rest_advance, hrest, List.tail_cons]
      have hlength : read.length = f.read.length + 1 := by simp [read]
      obtain ⟨k, hk, hread, hcursor, hbest, hwithin⟩ := ih
      simp only [hafter] at hk hread hbest hwithin
      refine ⟨k + 1, ?_, ?_, hcursor, ?_, ?_⟩
      · rw [hrest]
        exact Nat.succ_le_succ hk
      · rw [hread, hrest]
        simp [read]
      · rw [hbest, hrest]
        simp only [longest?, ↓reduceIte]
        cases longer.longest? r with
        | some m => simp [hlength, Nat.add_assoc, Nat.add_comm 1]
        | none => cases here <;> simp [hlength]
      · intro m hm
        rw [hrest] at hm
        simp only [longest?, ↓reduceIte] at hm
        cases hlonger : longer.longest? r with
        | some n =>
            rw [hlonger] at hm
            cases hm
            exact Nat.succ_le_succ (hwithin n hlonger)
        | none =>
            rw [hlonger] at hm
            obtain ⟨v, -, rfl⟩ := Option.map_eq_some_iff.1 hm
            exact Nat.succ_le_succ (Nat.zero_le k)
  | case4 b here longer beside f c hpeek hne ih =>
      obtain ⟨r, hrest⟩ : ∃ r, f.cursor.rest = c :: r := List.head?_eq_some_iff.1 hpeek
      have hskip : (branch b here longer beside).longest? f.cursor.rest
          = beside.longest? f.cursor.rest := by
        rw [hrest, longest?, if_neg hne]
      rwa [hskip]

/-- A match is no longer than what is left. -/
theorem length_longest?_le {t : Symbols α} {cs : List Char} {n : Nat} {v : α}
    (h : t.longest? cs = some (n, v)) : n ≤ cs.length := by
  rcases longest?_cases t cs with ⟨_, _, hsome, hle, -⟩ | ⟨hnone, -⟩
  · rw [h] at hsome
    cases hsome
    exact hle
  · rw [h] at hnone
    cases hnone

/-- What a cursor read further than the symbol is put back: it reads the symbol
or it stays. -/
theorem longestMatch_eq (t : Symbols α) (cur : Cursor) :
    t.longestMatch cur = match t.longest? cur.rest with
      | some (n, v) => (some (cur.rest.take n, v), cur.skip n)
      | none => (none, cur) := by
  obtain ⟨k, hk, hread, hcursor, hbest, hwithin⟩ := follow_eq t ⟨[], none, cur⟩
  simp only [List.nil_append, List.length_nil, Nat.zero_add, Option.or_none]
    at hk hread hcursor hbest hwithin
  have hpassed : (t.follow ⟨[], none, cur⟩).read.length = k := by
    rw [hread, List.length_take, Nat.min_eq_left hk]
  unfold longestMatch
  simp only [hbest, hcursor, hpassed, Option.map_id']
  cases hmatch : t.longest? cur.rest with
  | none => simp [Cursor.rewind_skip cur hk (Nat.le_refl k), Cursor.skip]
  | some m =>
      have hm : m.1 ≤ k := hwithin m hmatch
      simp only [Cursor.rewind_skip cur hk (Nat.sub_le k m.1), hread,
        List.take_take, Nat.min_eq_left hm, Nat.sub_sub_self hm]

end Symbols

end Formula
