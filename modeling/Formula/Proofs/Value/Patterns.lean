/-
Matching of values against wildcard patterns. Whatever the coercion, the value
and the pattern are taken as texts; how these match is left to an engine for
regular expressions, of which only what its notation means is relied on.

Main statement: a value is like a pattern exactly if its text can be cut into
pieces that the characters of the pattern stand for (`like_iff_matches`).
-/
import Formula.Proofs.Text.Wildcard
import Formula.Value.Operations

namespace Formula.Coercion

open Value

/-- A value is like a pattern, neither of them null, if its text can be cut into
pieces, one for each character of the pattern's text: any run of characters for
`%`, one character for `_`, and for every other character one that is the same,
case aside. -/
theorem like_iff_matches {engine : Regex.Engine} {same : Char → Char → Bool}
    (hengine : engine.Follows same) (k : Coercion) {value pattern : Value}
    (hvalue : value ≠ .null) (hpattern : pattern ≠ .null) {s p : String}
    (hs : k.asText value = .ok s) (hp : k.asText pattern = .ok p) :
    ∃ answer : Bool, k.likeWith engine value pattern = .ok (.boolean answer)
      ∧ (answer = true ↔ Wildcard.Matches same p.toList s.toList) := by
  obtain ⟨finds, hbuild, hfinds⟩ := Wildcard.build_of_follows hengine p.toList
  have hnull : ¬(value.isNull || pattern.isNull) = true := by
    rw [Bool.or_eq_true, isNull_iff, isNull_iff]
    exact fun h => h.elim hvalue hpattern
  refine ⟨finds s.toList, ?_, hfinds s.toList⟩
  unfold likeWith
  rw [if_neg hnull, hs, hp]
  dsimp only [bind, Except.bind]
  rw [hbuild]

/-- Characters with a meaning in expressions stand for themselves, letters for
themselves in either case, and a run of characters may go over a line. -/
theorem like_iff_matches_special :
    lenient.operations.binary .like (.string "x+Y\n(z)") (.string "X+_%(%)")
      = .ok (.boolean true) := by
  have hvalue : Value.string "x+Y\n(z)" ≠ .null := Value.noConfusion
  have hpattern : Value.string "X+_%(%)" ≠ .null := Value.noConfusion
  obtain ⟨answer, hlike, hanswer⟩ :=
    like_iff_matches Regex.standard_follows lenient hvalue hpattern rfl rfl
  have hmatches : Wildcard.Matches sameLetter "X+_%(%)".toList "x+Y\n(z)".toList := by
    refine ⟨[['x'], ['+'], ['Y'], ['\n'], ['('], ['z'], [')']], rfl, ?_⟩
    exact .cons ⟨'x', rfl, by decide⟩ (.cons ⟨'+', rfl, by decide⟩ (.cons ⟨'Y', rfl⟩
      (.cons trivial (.cons ⟨'(', rfl, by decide⟩ (.cons trivial
        (.cons ⟨')', rfl, by decide⟩ .nil))))))
  rw [hanswer.2 hmatches] at hlike
  exact hlike

end Formula.Coercion
