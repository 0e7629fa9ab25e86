/-
White space around a text: the characters with the `White_Space` property
of Unicode, and a text without those at its two ends.
-/

namespace Formula

/-- The characters with the Unicode property `White_Space`. -/
def isBlank (c : Char) : Bool :=
  let n := c.toNat
  (0x9 ≤ n && n ≤ 0xD) || n == 0x20 || n == 0x85 || n == 0xA0 || n == 0x1680
    || (0x2000 ≤ n && n ≤ 0x200A) || n == 0x2028 || n == 0x2029 || n == 0x202F
    || n == 0x205F || n == 0x3000

/-- The characters without the white space at both ends. -/
def trimBlanks (cs : List Char) : List Char :=
  ((cs.dropWhile isBlank).reverse.dropWhile isBlank).reverse

/-- The text without the white space at both ends. -/
def trimText (s : String) : String := String.ofList (trimBlanks s.toList)

/-- Whether a text holds nothing but white space. -/
def isBlankText (s : String) : Bool := s.toList.all isBlank

/-- White space comes off the front, up to what is none. -/
theorem dropWhile_isBlank_append {s cs : List Char} (hs : ∀ c ∈ s, isBlank c = true)
    (hcs : ∀ c, cs.head? = some c → isBlank c = false) : (s ++ cs).dropWhile isBlank = cs := by
  rw [List.dropWhile_append_of_pos hs]
  cases cs with
  | nil => rfl
  | cons c cs => exact List.dropWhile_cons_of_neg (by simp [hcs c rfl])

/-- White space around a text without any comes off. -/
theorem trimBlanks_append {s cs t : List Char} (hs : ∀ c ∈ s, isBlank c = true) (hne : cs ≠ [])
    (hcs : ∀ c ∈ cs, isBlank c = false) (ht : ∀ c ∈ t, isBlank c = true) :
    trimBlanks (s ++ cs ++ t) = cs := by
  have hfirst : ∀ c, (cs ++ t).head? = some c → isBlank c = false := by
    intro c hc
    obtain ⟨d, r, rfl⟩ := List.exists_cons_of_ne_nil hne
    cases hc
    exact hcs _ List.mem_cons_self
  have hlast : ∀ c, cs.reverse.head? = some c → isBlank c = false := by
    intro c hc
    exact hcs c (List.mem_reverse.1 (List.mem_of_head? hc))
  have htail : ∀ c ∈ t.reverse, isBlank c = true := fun c hc => ht c (List.mem_reverse.1 hc)
  unfold trimBlanks
  rw [List.append_assoc, dropWhile_isBlank_append hs hfirst, List.reverse_append,
    dropWhile_isBlank_append htail hlast, List.reverse_reverse]

end Formula
