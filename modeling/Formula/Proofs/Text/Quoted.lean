/-
Reading quoted texts back. What a text is written as is read whole wherever
no quote follows it (`closing_double`), and stands for the text
(`decode_encode`). Nothing else is read: what is taken behind an opening
quote is what some text is written as (`closing_eq_some_iff`).
-/
import Formula.Text.Quoted

namespace Formula.Quoted

variable {q : Char} {text rest : List Char}

theorem collapse_double (q : Char) (text : List Char) : collapse q (double q text) = text := by
  induction text with
  | nil => rfl
  | cons c r ih =>
      by_cases hc : c = q
      · subst hc
        rw [double, if_pos rfl, collapse, if_pos ⟨rfl, rfl⟩, ih]
      · rw [double, if_neg hc]
        cases hr : double q r with
        | nil =>
            rw [hr] at ih
            rw [← ih]
            rfl
        | cons d s =>
            rw [hr] at ih
            rw [collapse, if_neg (fun h => hc h.1), ih]

/-- A quoted text stands for the text that was quoted. -/
theorem decode_encode (q : Char) (text : List Char) : decode q (encode q text) = text := by
  obtain ⟨b, r, hbody⟩ : ∃ b r, double q text ++ [q] = b :: r :=
    List.exists_cons_of_ne_nil (by simp)
  have hlast : (b :: r).getLast? = some q := by
    rw [← hbody]
    exact List.getLast?_concat
  have hinit : (b :: r).dropLast = double q text := by
    rw [← hbody]
    exact List.dropLast_concat
  unfold encode
  rw [List.cons_append, hbody, decode, if_pos ⟨rfl, hlast⟩, hinit, collapse_double]

/-- Reading on behind an opening quote takes the whole text, if it does not
go on with a quote. -/
theorem closing_double (hrest : rest.head? ≠ some q) :
    closing q (double q text ++ q :: rest) = some (double q text ++ [q]) := by
  induction text with
  | nil =>
      cases rest with
      | nil =>
          rw [double, List.nil_append, closing, if_pos rfl]
      | cons d r =>
          have hd : d ≠ q := fun h => hrest (congrArg some h)
          rw [double, List.nil_append, closing, if_pos rfl, if_neg hd]
          rfl
  | cons c r ih =>
      by_cases hc : c = q
      · subst hc
        rw [double, if_pos rfl, List.cons_append, List.cons_append, closing, if_pos rfl,
          if_pos rfl, ih]
        rfl
      · obtain ⟨d, s, hbody⟩ : ∃ d s, double q r ++ q :: rest = d :: s :=
          List.exists_cons_of_ne_nil (by simp)
        rw [double, if_neg hc, List.cons_append, hbody, closing, if_neg hc, ← hbody, ih]
        rfl

/-- A quoted text is its opening quote and what is read behind that. -/
theorem encode_append (q : Char) (text rest : List Char) :
    encode q text ++ rest = q :: (double q text ++ q :: rest) := by
  simp [encode]

/-- What is read behind an opening quote is a text as it is written, and
stops where no quote follows. -/
theorem closing_eq_some_iff {cs body : List Char} :
    closing q cs = some body ↔
      ∃ text rest, cs = double q text ++ q :: rest ∧ rest.head? ≠ some q
        ∧ body = double q text ++ [q] := by
  constructor
  · intro h
    fun_induction closing q cs generalizing body with
    | case1 => cases h
    | case2 =>
        cases h
        exact ⟨[], [], rfl, nofun, rfl⟩
    | case3 => cases h
    | case4 r ih =>
        obtain ⟨more, hmore, rfl⟩ := Option.map_eq_some_iff.1 h
        obtain ⟨text, rest, rfl, hrest, rfl⟩ := ih hmore
        exact ⟨q :: text, rest, by rw [double, if_pos rfl]; rfl, hrest,
          by rw [double, if_pos rfl]; rfl⟩
    | case5 d r hne =>
        cases h
        exact ⟨[], d :: r, rfl, fun hd => hne (Option.some.inj hd), rfl⟩
    | case6 c d r hne ih =>
        obtain ⟨more, hmore, rfl⟩ := Option.map_eq_some_iff.1 h
        obtain ⟨text, rest, hcs, hrest, rfl⟩ := ih hmore
        exact ⟨c :: text, rest, by rw [double, if_neg hne, hcs]; rfl, hrest,
          by rw [double, if_neg hne]; rfl⟩
  · rintro ⟨text, rest, rfl, hrest, rfl⟩
    exact closing_double hrest

end Formula.Quoted
