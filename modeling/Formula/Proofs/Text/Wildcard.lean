/-
What wildcard patterns match. A text matches a pattern if it can be cut into
pieces, one for each character of the pattern and in their order, each of
which the character stands for (`Stands`, `Matches`).

A pattern is written as an expression that is read back as one part for each
of its characters, between the two ends of the text (`read_expression`);
characters with a meaning in expressions lose it by being escaped. The parts
match where the pattern does (`matchesAt_parts`), and the two ends leave no
other place than the whole text.

Main statement: every engine that does what is relied on finds the texts that
match (`build_of_follows`).
-/
import Formula.Proofs.Text.Regex
import Formula.Text.Wildcard
import Mathlib.Data.List.Forall2

namespace Formula.Wildcard

open Regex

-- ================================================================ meaning

/-- What a character of a pattern stands for. -/
def Stands (same : Char → Char → Bool) (a : Char) (piece : List Char) : Prop :=
  if a = '%' then True
  else if a = '_' then ∃ c, piece = [c]
  else ∃ c, piece = [c] ∧ same a c = true

/-- The texts that a pattern matches. -/
def Matches (same : Char → Char → Bool) (pattern text : List Char) : Prop :=
  ∃ pieces : List (List Char), pieces.flatten = text ∧ List.Forall₂ (Stands same) pattern pieces

section

variable {same : Char → Char → Bool}

theorem stands_run (piece : List Char) : Stands same '%' piece := trivial

theorem stands_one {piece : List Char} : Stands same '_' piece ↔ ∃ c, piece = [c] := Iff.rfl

theorem stands_letter {a : Char} (hrun : a ≠ '%') (hone : a ≠ '_') {piece : List Char} :
    Stands same a piece ↔ ∃ c, piece = [c] ∧ same a c = true := by
  unfold Stands
  rw [if_neg hrun, if_neg hone]

theorem matches_nil {text : List Char} : Matches same [] text ↔ text = [] := by
  constructor
  · rintro ⟨pieces, rfl, hstands⟩
    cases hstands
    rfl
  · rintro rfl
    exact ⟨[], rfl, .nil⟩

/-- The first character stands for what comes first, and the others match what
comes behind. -/
theorem matches_cons {a : Char} {p text : List Char} :
    Matches same (a :: p) text
      ↔ ∃ piece rest, text = piece ++ rest ∧ Stands same a piece ∧ Matches same p rest := by
  constructor
  · rintro ⟨pieces, rfl, hstands⟩
    cases hstands with
    | @cons _ piece _ pieces hpiece hpieces =>
        exact ⟨piece, pieces.flatten, rfl, hpiece, pieces, rfl, hpieces⟩
  · rintro ⟨piece, rest, rfl, hpiece, pieces, rfl, hpieces⟩
    exact ⟨piece :: pieces, rfl, .cons hpiece hpieces⟩

end

-- ============================================================ the notation

/-- The part of the expression that a character of a pattern becomes. -/
def part (a : Char) : Part := if a = '%' then .dots else if a = '_' then .dot else .letter a

section

variable {engine : Engine} {same : Char → Char → Bool} (h : engine.Follows same)

include h

/-- The expression for a pattern is read as one part for each character, up to
the end of the text. -/
theorem read_spelled (p : List Char) :
    read (p.flatMap (spell engine.escape) ++ ['$']) = some (p.map part ++ [.finish]) := by
  induction p with
  | nil => rfl
  | cons a p ih =>
      rw [List.flatMap_cons, List.append_assoc, List.map_cons, List.cons_append]
      by_cases hrun : a = '%'
      · subst hrun
        show (read (p.flatMap (spell engine.escape) ++ ['$'])).map _ = _
        rw [ih]
        rfl
      by_cases hone : a = '_'
      · subst hone
        exact read_dot ih
      · unfold spell part
        rw [if_neg hrun, if_neg hone, if_neg hrun, if_neg hone, h.read_escape]
        change (read (p.flatMap (spell engine.escape) ++ ['$'])).map _ = _
        rw [ih]
        rfl

theorem read_expression (p : List Char) :
    read (expression engine.escape p) = some (.start :: (p.map part ++ [.finish])) := by
  unfold expression
  rw [read_cons (by decide) fun heq => absurd heq (by decide), read_spelled h p]
  rfl

end

-- ============================================================= the meaning

/-- In either case and across lines. -/
abbrev liberal : Options := ⟨true, true⟩

section

variable {same : Char → Char → Bool}

theorem dotTakes_liberal (c : Char) : liberal.dotTakes c = true := rfl

/-- The parts match where the pattern does. -/
theorem matchesAt_parts {p before ahead : List Char} :
    MatchesAt liberal same (p.map part ++ [.finish]) before ahead ↔ Matches same p ahead := by
  induction p generalizing before ahead with
  | nil => exact (and_iff_left trivial).trans matches_nil.symm
  | cons a p ih =>
      rw [matches_cons]
      by_cases hrun : a = '%'
      · subst hrun
        constructor
        · rintro ⟨taken, rest, rfl, -, hrest⟩
          exact ⟨taken, rest, rfl, stands_run taken, ih.1 hrest⟩
        · rintro ⟨taken, rest, rfl, -, hrest⟩
          exact ⟨taken, rest, rfl, fun c _ => dotTakes_liberal c, ih.2 hrest⟩
      by_cases hone : a = '_'
      · subst hone
        constructor
        · rintro ⟨c, rest, rfl, -, hrest⟩
          exact ⟨[c], rest, rfl, stands_one.2 ⟨c, rfl⟩, ih.1 hrest⟩
        · rintro ⟨piece, rest, rfl, hpiece, hrest⟩
          obtain ⟨c, rfl⟩ := stands_one.1 hpiece
          exact ⟨c, rest, rfl, dotTakes_liberal c, ih.2 hrest⟩
      · have hpart : part a = .letter a := by
          unfold part
          rw [if_neg hrun, if_neg hone]
        rw [List.map_cons, hpart]
        constructor
        · rintro ⟨c, rest, rfl, hsame, hrest⟩
          exact ⟨[c], rest, rfl, (stands_letter hrun hone).2 ⟨c, rfl, hsame⟩, ih.1 hrest⟩
        · rintro ⟨piece, rest, rfl, hpiece, hrest⟩
          obtain ⟨c, rfl, hsame⟩ := (stands_letter hrun hone).1 hpiece
          exact ⟨c, rest, rfl, hsame, ih.2 hrest⟩

/-- Between the two ends of the text there is no other place than the whole. -/
theorem found_iff {p text : List Char} :
    Found liberal same (.start :: (p.map part ++ [.finish])) text ↔ Matches same p text := by
  constructor
  · rintro ⟨before, ahead, rfl, rfl, hparts⟩
    exact matchesAt_parts.1 hparts
  · intro hmatches
    exact ⟨[], text, rfl, rfl, matchesAt_parts.2 hmatches⟩

end

-- ============================================================ main result

/-- An engine that does what is relied on accepts the expression for every
pattern, and finds it in the texts that match. -/
theorem build_of_follows {engine : Engine} {same : Char → Char → Bool}
    (h : engine.Follows same) (p : List Char) :
    ∃ finds, build engine p = .ok finds ∧ ∀ text, finds text = true ↔ Matches same p text := by
  obtain ⟨finds, hbuild, hfinds⟩ := h.build liberal _ _ (read_expression h p)
  exact ⟨finds, hbuild, fun text => (hfinds text).trans found_iff⟩

end Formula.Wildcard
