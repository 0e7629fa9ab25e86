/-
What regular expressions mean. At a place in a text, with some of the text
before it and some ahead, an expression matches part by part: the ends are
there or not, a character or a run of them is taken, and the rest matches
behind it (`MatchesAt`). An expression is found in a text if it matches at
some place in it (`Found`); how far the match goes does not matter.

Nothing else is asked of an engine than what its notation means: that what it
escapes stands for itself, and that it accepts an expression and finds it
where it matches (`Engine.Follows`). Which letters are the same but for their
case is left to the engine.

Main statement: the standard engine does so, for the simple case folding
(`standard_follows`). Its marks tell of each end of a text whether something
holds there (`Marks`), and each part keeps this.
-/
import Formula.Text.Regex

namespace Formula.Regex

-- ================================================================ meaning

section

variable (takes : Char → Bool) (P : List Char → List Char → Prop)

/-- What it is for a character to be taken at a place, and for something to
hold behind it. -/
def One (before ahead : List Char) : Prop :=
  ∃ c rest, ahead = c :: rest ∧ takes c = true ∧ P (before ++ [c]) rest

/-- What it is for any number of characters to be taken at a place, and for
something to hold behind them. -/
def Run (before ahead : List Char) : Prop :=
  ∃ taken rest, ahead = taken ++ rest ∧ (∀ c ∈ taken, takes c = true) ∧ P (before ++ taken) rest

end

/-- What it is for an expression to match at a place, up to some other place. -/
def MatchesAt (opts : Options) (same : Char → Char → Bool) :
    Expression → (before ahead : List Char) → Prop
  | [], _, _ => True
  | .start :: e, before, ahead => before = [] ∧ MatchesAt opts same e before ahead
  | .finish :: e, before, ahead => ahead = [] ∧ MatchesAt opts same e before ahead
  | .letter a :: e, before, ahead =>
    One (opts.letterTakes same a) (MatchesAt opts same e) before ahead
  | .dot :: e, before, ahead => One opts.dotTakes (MatchesAt opts same e) before ahead
  | .dots :: e, before, ahead => Run opts.dotTakes (MatchesAt opts same e) before ahead

/-- What it is for an expression to be found in a text. -/
def Found (opts : Options) (same : Char → Char → Bool) (e : Expression) (text : List Char) : Prop :=
  ∃ before ahead, text = before ++ ahead ∧ MatchesAt opts same e before ahead

/-- What is relied on in an engine. That it may refuse an expression for its size
alone is left aside. -/
structure Engine.Follows (engine : Engine) (same : Char → Char → Bool) : Prop where
  /-- What is escaped stands for itself. -/
  read_escape : ∀ c r, read (engine.escape [c] ++ r) = (read r).map (.letter c :: ·)
  /-- An expression is accepted, and found where it matches. -/
  build : ∀ opts text e, read text = some e →
    ∃ finds, engine.build opts text = .ok finds ∧ ∀ t, finds t = true ↔ Found opts same e t

-- =============================================================== notation

/-- A character with no backslash before it and no sign of repetition behind. -/
theorem read_cons {c : Char} {r : List Char} (hescape : c ≠ '\\')
    (hrun : c = '.' → r.head? ≠ some '*') :
    read (c :: r) = (part? c).bind fun part => (read r).map (part :: ·) := by
  rw [read.eq_def]
  split
  · next heq => cases heq
  · next heq =>
    cases heq
    exact absurd rfl (hrun rfl)
  · next heq =>
    cases heq
    exact absurd rfl hescape
  · next heq =>
    cases heq
    rfl

/-- A character without a meaning of its own is read as itself. -/
theorem read_letter {c : Char} (h : c ∉ special) (r : List Char) :
    read (c :: r) = (read r).map (.letter c :: ·) := by
  have hpart : part? c = some (.letter c) := by
    unfold part?
    split
    · exact absurd (by decide) h
    · exact absurd (by decide) h
    · exact absurd (by decide) h
    · exact if_neg h
  have hescape : c ≠ '\\' := fun heq => h (heq ▸ by decide)
  have hdot : c ≠ '.' := fun heq => h (heq ▸ by decide)
  rw [read_cons hescape fun heq => absurd heq hdot, hpart]
  rfl

/-- No expression begins with a sign of repetition. -/
theorem head_ne_star {text : List Char} {e : Expression} (h : read text = some e) :
    text.head? ≠ some '*' := by
  cases text with
  | nil => exact nofun
  | cons c r =>
      rintro ⟨rfl⟩
      cases h

/-- The dot is read as one character if no sign of repetition follows. -/
theorem read_dot {text : List Char} {e : Expression} (h : read text = some e) :
    read ('.' :: text) = some (.dot :: e) := by
  rw [read_cons (by decide) fun _ => head_ne_star h, h]
  rfl

-- =================================================================== runs

section

variable {takes : Char → Bool} {P : List Char → List Char → Prop} {before : List Char}

/-- A run takes nothing, or a character and then a run. -/
theorem run_cons {c : Char} :
    Run takes P before (c :: t)
      ↔ P before (c :: t) ∨ takes c = true ∧ Run takes P (before ++ [c]) t := by
  constructor
  · rintro ⟨taken, rest, heq, htakes, hP⟩
    cases taken with
    | nil =>
        rw [List.nil_append] at heq
        rw [List.append_nil, ← heq] at hP
        exact .inl hP
    | cons d taken =>
        cases heq
        rw [List.append_cons] at hP
        rw [List.forall_mem_cons] at htakes
        exact .inr ⟨htakes.1, taken, rest, rfl, htakes.2, hP⟩
  · rintro (hP | ⟨htakes, taken, rest, rfl, htaken, hP⟩)
    · exact ⟨[], c :: t, rfl, by simp, by rwa [List.append_nil]⟩
    · refine ⟨c :: taken, rest, rfl, List.forall_mem_cons.2 ⟨htakes, htaken⟩, ?_⟩
      rwa [List.append_cons]

/-- At the end of a text a run takes nothing. -/
theorem run_nil : Run takes P before [] ↔ P before [] := by
  constructor
  · rintro ⟨taken, rest, heq, -, hP⟩
    obtain ⟨rfl, rfl⟩ := List.append_eq_nil_iff.1 heq.symm
    rwa [List.append_nil] at hP
  · intro hP
    exact ⟨[], [], rfl, by simp, by rwa [List.append_nil]⟩

end

-- ================================================================== marks

/-- What it is for marks to tell of each end of a text, from a place on,
whether something holds there. -/
inductive Marks (P : List Char → List Char → Prop) : List Char → List Char → List Bool → Prop
  | last {before : List Char} {b : Bool} : (b = true ↔ P before []) → Marks P before [] [b]
  | more {before t : List Char} {c : Char} {b : Bool} {marks : List Bool} :
      (b = true ↔ P before (c :: t)) → Marks P (before ++ [c]) t marks →
      Marks P before (c :: t) (b :: marks)

namespace Marks

variable {takes : Char → Bool} {P : List Char → List Char → Prop} {before t : List Char}
  {marks : List Bool}

theorem head (h : Marks P before t marks) : marks.headD false = true ↔ P before t := by
  cases h with
  | last hb => exact hb
  | more hb _ => exact hb

/-- What holds nowhere is marked nowhere. -/
theorem nowhere (h : ∀ taken rest, t = taken ++ rest → ¬P (before ++ taken) rest) :
    Marks P before t (false :: t.map fun _ => false) := by
  induction t generalizing before with
  | nil =>
      refine .last (iff_of_false Bool.false_ne_true ?_)
      have hnot := h [] [] rfl
      rwa [List.append_nil] at hnot
  | cons c t ih =>
      refine .more (iff_of_false Bool.false_ne_true ?_) (ih fun taken rest ht => ?_)
      · have hnot := h [] (c :: t) rfl
        rwa [List.append_nil] at hnot
      · have hnot := h (c :: taken) rest (by rw [ht]; rfl)
        rwa [List.append_cons] at hnot

/-- What holds everywhere is marked everywhere. -/
theorem everywhere (h : ∀ before ahead, P before ahead) :
    Marks P before t (true :: t.map fun _ => true) := by
  induction t generalizing before with
  | nil => exact .last (iff_of_true rfl (h _ _))
  | cons c t ih => exact .more (iff_of_true rfl (h _ _)) ih

theorem start (h : Marks P [] t marks) :
    Marks (fun before ahead => before = [] ∧ P before ahead) [] t
      (marks.headD false :: t.map fun _ => false) := by
  have hhead := h.head
  cases t with
  | nil => exact .last (by simpa using hhead)
  | cons c t =>
      refine .more (by simpa using hhead) (nowhere fun taken rest _ hbegin => ?_)
      simp at hbegin

theorem finish (h : Marks P before t marks) :
    Marks (fun before ahead => ahead = [] ∧ P before ahead) before t
      ((t.map fun _ => false) ++ [marks.getLastD false]) := by
  induction h with
  | last hb => exact .last (by simpa using hb)
  | @more before t c b marks hb hrest ih =>
      have hlast : (b :: marks).getLastD false = marks.getLastD false := by
        cases hrest <;> rfl
      rw [hlast]
      exact .more (by simp) ih

theorem one (h : Marks P before t marks) :
    Marks (One takes P) before t (Regex.one takes t marks) := by
  induction h with
  | last _ => exact .last (by simp [One])
  | @more before t c b marks _ hrest ih =>
      refine .more ?_ ih
      rw [Bool.and_eq_true, hrest.head]
      constructor
      · rintro ⟨htakes, hP⟩
        exact ⟨c, t, rfl, htakes, hP⟩
      · rintro ⟨c', rest, heq, htakes, hP⟩
        cases heq
        exact ⟨htakes, hP⟩

theorem run (h : Marks P before t marks) :
    Marks (Run takes P) before t (Regex.run takes t marks) := by
  induction h with
  | last hb => exact .last (hb.trans run_nil.symm)
  | @more before t c b marks hb _ ih =>
      refine .more ?_ ih
      rw [Bool.or_eq_true, Bool.and_eq_true, hb, ih.head]
      exact run_cons.symm

/-- Some end is marked if something holds at some place. -/
theorem any (h : Marks P before t marks) :
    marks.any id = true ↔ Run (fun _ => true) P before t := by
  induction h with
  | last hb => rw [run_nil, List.any_cons, List.any_nil, Bool.or_false, id, hb]
  | more hb _ ih => rw [run_cons, List.any_cons, Bool.or_eq_true, id, hb, ih, and_iff_right rfl]

end Marks

-- ============================================================= the search

/-- The search marks the places where the expression matches. -/
theorem marks_leads (opts : Options) (text : List Char) (e : Expression) :
    Marks (MatchesAt opts sameLetter e) [] text (leads opts text e) := by
  induction e with
  | nil => exact .everywhere fun _ _ => trivial
  | cons part e ih =>
      cases part with
      | start => exact ih.start
      | finish => exact ih.finish
      | letter a => exact ih.one
      | dot => exact ih.one
      | dots => exact ih.run

theorem finds_iff (opts : Options) (e : Expression) (text : List Char) :
    finds opts e text = true ↔ Found opts sameLetter e text := by
  refine (marks_leads opts text e).any.trans ⟨?_, ?_⟩
  · rintro ⟨before, ahead, htext, -, hmatches⟩
    exact ⟨before, ahead, htext, hmatches⟩
  · rintro ⟨before, ahead, htext, hmatches⟩
    exact ⟨before, ahead, htext, fun _ _ => rfl, hmatches⟩

theorem standard_follows : standard.Follows sameLetter where
  read_escape c r := by
    show read ((if c ∈ special then ['\\', c] else [c]) ++ [] ++ r) = _
    by_cases hc : c ∈ special
    · rw [if_pos hc]
      exact if_pos hc
    · rw [if_neg hc]
      exact read_letter hc r
  build opts text e h := by
    refine ⟨finds opts e, ?_, finds_iff opts e⟩
    dsimp only [standard]
    rw [h]

end Formula.Regex
