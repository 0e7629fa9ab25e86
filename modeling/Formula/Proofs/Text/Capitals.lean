/-
Which texts have capitals in ASCII. The case of ASCII letters makes no
difference to capitals (`capitals_of_sameName`). Of the letters outside ASCII,
two share their capital with an ASCII letter, the dotless i and the long s;
eight more are pairs or triples of ASCII letters that are written as one; and
every other one has something outside ASCII in its capital. This is checked on
the tables (`capital_cases`).

Main statement: a text in ASCII without such a pair in it is the capitals of a
text exactly if they differ in case only, the dotless i counting as an i and
the long s as an s (`capitals_eq_iff`).
-/
import Formula.Text.Capitals

namespace Formula

-- ================================================================ ASCII

/-- What holds of the first characters by number holds of them. -/
theorem forall_ascii {P : Char → Prop} (h : ∀ n, n < 128 → P (Char.ofNat n)) {c : Char}
    (hc : c.toNat < 128) : P c := by
  have hn := h c.toNat hc
  rwa [Char.ofNat_toNat] at hn

theorem capital_of_ascii {c : Char} (hc : c.toNat < 128) : capital c = [c.toUpper] := if_pos hc

theorem toLower_of_not_ascii {c : Char} (hc : 128 ≤ c.toNat) : c.toLower = c := by
  unfold Char.toLower
  rw [dif_neg]
  intro h
  have hle : c.toNat ≤ 90 := h.2
  omega

/-- A character and its small letter have the same capital. -/
theorem capital_toLower (c : Char) : capital c.toLower = capital c := by
  by_cases hc : c.toNat < 128
  · have hsmall : c.toLower.toNat < 128 ∧ c.toLower.toUpper = c.toUpper :=
      forall_ascii (P := fun c => c.toLower.toNat < 128 ∧ c.toLower.toUpper = c.toUpper)
        (by decide) hc
    rw [capital_of_ascii hsmall.1, capital_of_ascii hc, hsmall.2]
  · rw [toLower_of_not_ascii (by omega)]

theorem capitals_asciiFold (s : String) : capitals (asciiFold s) = capitals s := by
  unfold capitals asciiFold
  rw [String.toList_ofList, List.flatMap_map]
  simp only [capital_toLower]

/-- Texts that differ in the case of ASCII letters have the same capitals. -/
theorem capitals_of_sameName {s t : String} (h : sameName s t = true) :
    capitals s = capitals t := by
  rw [← capitals_asciiFold s, sameName_iff.1 h, capitals_asciiFold]

-- ============================================================= the tables

/-- The ASCII letter that a letter outside ASCII shares its capital with. Other
characters stand for themselves. -/
def asciiTwin (c : Char) : Char := if c = 'ı' then 'i' else if c = 'ſ' then 's' else c

/-- A text with letters outside ASCII replaced by ASCII letters of the same
capital. -/
def asciiTwins (s : String) : String := String.ofList (s.toList.map asciiTwin)

theorem capital_asciiTwin (c : Char) : capital (asciiTwin c) = capital c := by
  unfold asciiTwin
  split
  · next h =>
    subst h
    decide
  · split
    · next h =>
      subst h
      decide
    · rfl

theorem capitals_asciiTwins (s : String) : capitals (asciiTwins s) = capitals s := by
  unfold capitals asciiTwins
  rw [String.toList_ofList, List.flatMap_map]
  simp only [capital_asciiTwin]

/-- Pairs of letters that capitals of single letters begin with. -/
def ligatures : List (List Char) := [['S', 'S'], ['F', 'F'], ['F', 'I'], ['F', 'L'], ['S', 'T']]

/-- Whether a character is outside ASCII. What has no number of its own is
counted as outside, too. -/
def outsideAscii (c : Char) : Bool := c.toNat == 0 || 128 ≤ c.toNat

theorem outsideAscii_ofNat {n : Nat} (hn : 128 ≤ n) : outsideAscii (Char.ofNat n) = true := by
  unfold Char.ofNat
  by_cases hvalid : n.isValidChar
  · rw [dif_pos hvalid]
    show (n == 0 || decide (128 ≤ n)) = true
    simp [hn]
  · rw [dif_neg hvalid]
    rfl

/-- A run leads out of ASCII if its first character does. -/
theorem outsideAscii_move {r : CaseRun} {c : Char} (h : r.holds c.toNat = true)
    (hr : 128 ≤ r.first + r.shift) : outsideAscii (r.move c) = true := by
  have hfirst : r.first ≤ c.toNat := by
    simp only [CaseRun.holds, Bool.and_eq_true, decide_eq_true_eq] at h
    exact h.1.1
  apply outsideAscii_ofNat
  omega

/-- Two runs lead into ASCII, of one letter each. -/
theorem mem_capitalRuns : ∀ r ∈ capitalRuns, 128 ≤ r.first + r.shift
    ∨ r.first = r.last ∧ (r.first = 'ı'.toNat ∨ r.first = 'ſ'.toNat) := by
  decide +kernel

/-- Capitals of several letters lead out of ASCII with the first of them or
another one, or they begin with a pair. -/
theorem mem_capitalGroups : ∀ g ∈ capitalGroups, 128 ≤ g.1.first + g.1.shift
    ∨ g.2.any outsideAscii = true
    ∨ g.1.first = g.1.last
      ∧ ∃ l ∈ ligatures, l.isPrefixOf (Char.ofNat (g.1.first + g.1.shift).toNat :: g.2) = true := by
  decide

theorem eq_of_holds {r : CaseRun} {c : Char} (h : r.holds c.toNat = true) (hr : r.first = r.last) :
    c.toNat = r.first := by
  simp only [CaseRun.holds, Bool.and_eq_true, decide_eq_true_eq] at h
  omega

/-- What the capital of a character may be: a single character, which is that
of its ASCII twin if it is in ASCII; something outside ASCII; or a pair of
letters and perhaps more. -/
theorem capital_cases (c : Char) :
    (∃ d, capital c = [d] ∧ (asciiTwin c).toLower = d.toLower)
      ∨ (∃ d ∈ capital c, outsideAscii d = true)
      ∨ ∃ l ∈ ligatures, l <+: capital c := by
  by_cases hc : c.toNat < 128
  · -- an ASCII letter is its own twin
    have htwin : asciiTwin c = c ∧ c.toUpper.toLower = c.toLower :=
      forall_ascii (P := fun c => asciiTwin c = c ∧ c.toUpper.toLower = c.toLower) (by decide) hc
    exact .inl ⟨c.toUpper, capital_of_ascii hc, by rw [htwin.1, htwin.2]⟩
  by_cases hi : c = 'ı'
  · subst hi
    exact .inl ⟨'I', by decide, by decide⟩
  by_cases hs : c = 'ſ'
  · subst hs
    exact .inl ⟨'S', by decide, by decide⟩
  unfold capital
  rw [if_neg hc]
  split
  · next r hfind =>
    have hholds := List.find?_some hfind
    rcases mem_capitalRuns r (List.mem_of_find?_eq_some hfind) with hout | ⟨hone, hletter⟩
    · exact .inr (.inl ⟨_, List.mem_singleton_self _, outsideAscii_move hholds hout⟩)
    · rw [← eq_of_holds hholds hone] at hletter
      exact (hletter.elim (fun h => hi (Char.toNat_inj.1 h)) fun h => hs (Char.toNat_inj.1 h)).elim
  · split
    · next g hfind =>
      have hholds := List.find?_some hfind
      have hmem := List.mem_of_find?_eq_some hfind
      rcases mem_capitalGroups g hmem with hout | hout | ⟨hone, l, hl, hpair⟩
      · exact .inr (.inl ⟨_, List.mem_cons_self .., outsideAscii_move hholds hout⟩)
      · obtain ⟨d, hd, hout⟩ := List.any_eq_true.1 hout
        exact .inr (.inl ⟨d, List.mem_cons_of_mem _ hd, hout⟩)
      · rw [← eq_of_holds hholds hone] at hpair
        exact .inr (.inr ⟨l, hl, List.isPrefixOf_iff_prefix.1 hpair⟩)
    · refine .inr (.inl ⟨c, List.mem_singleton_self c, ?_⟩)
      simp only [outsideAscii, Bool.or_eq_true, decide_eq_true_eq]
      omega

-- ============================================================ texts in ASCII

/-- Whether a text is in ASCII and has none of the pairs in it. -/
def unligated : List Char → Bool
  | [] => true
  | d :: ds => !outsideAscii d && !ligatures.any (·.isPrefixOf (d :: ds)) && unligated ds

theorem not_outsideAscii_of_unligated {ds : List Char} (h : unligated ds = true) :
    ∀ d ∈ ds, outsideAscii d = false := by
  induction ds with
  | nil => simp
  | cons d ds ih =>
      simp only [unligated, Bool.and_eq_true, Bool.not_eq_true'] at h
      intro e he
      rcases List.mem_cons.1 he with rfl | he
      · exact h.1.1
      · exact ih h.2 e he

/-- Whatever has such a text for its capitals differs from it in case only,
letter by letter. -/
theorem map_toLower_of_capitals {cs ds : List Char} (hds : unligated ds = true)
    (h : cs.flatMap capital = ds) :
    (cs.map asciiTwin).map Char.toLower = ds.map Char.toLower := by
  induction cs generalizing ds with
  | nil =>
      subst h
      rfl
  | cons c cs ih =>
      rw [List.flatMap_cons] at h
      rcases capital_cases c with ⟨d, hd, hsame⟩ | ⟨d, hd, hout⟩ | ⟨l, hl, hpair⟩
      · rw [hd] at h
        subst h
        simp only [unligated, List.singleton_append, Bool.and_eq_true] at hds
        simp only [List.map_cons, List.singleton_append, hsame, ih hds.2 rfl]
      · -- the text is in ASCII
        have hmem : d ∈ ds := h ▸ List.mem_append_left _ hd
        rw [not_outsideAscii_of_unligated hds d hmem] at hout
        cases hout
      · -- and no pair is in it
        have hbegins : l <+: ds := h ▸ hpair.trans (List.prefix_append _ _)
        cases ds with
        | nil =>
            have hne : ∀ l ∈ ligatures, l ≠ [] := by decide
            exact absurd (List.prefix_nil.1 hbegins) (hne l hl)
        | cons d ds =>
            simp only [unligated, Bool.and_eq_true, Bool.not_eq_true'] at hds
            have hnone := List.any_eq_false.1 hds.1.2 l hl
            exact absurd (List.isPrefixOf_iff_prefix.2 hbegins) hnone

/-- A text in ASCII without a pair in it, and all in capitals, is the capitals
of the texts that differ from it in case only, the dotless i counting as an i
and the long s as an s. -/
theorem capitals_eq_iff {s t : String} (ht : capitals t = t) (hpairs : unligated t.toList = true) :
    capitals s = t ↔ sameName (asciiTwins s) t = true := by
  constructor
  · intro h
    have hlist : s.toList.flatMap capital = t.toList := by
      rw [← h]
      exact String.toList_ofList.symm
    rw [sameName_iff, asciiTwins, asciiFold, asciiFold, String.toList_ofList,
      map_toLower_of_capitals hpairs hlist]
  · intro h
    rw [← capitals_asciiTwins, capitals_of_sameName h, ht]

end Formula
