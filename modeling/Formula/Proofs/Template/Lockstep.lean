/-
That the lexer of templates and the machine that reads its tokens keep in
step. Main statement: the tokens spell the template up to blanks inside tags,
and whenever the machine comes to a token it is outside tags if and only if
the lexer was (`tokens_in_step`).

The lexer does not say where it was; `trace` is the lexer with that noted.
The agreement rests on one fact about each of the two: the lexer leaves the
text at an opening bracket only, and the machine leaves a tag at a closing
bracket only. What the machine makes of the tokens in between is of no
consequence: it stops at the first that fits nothing.
-/
import Formula.Proofs.Template.Machine
import Formula.Proofs.Template.Tags

namespace Formula

namespace Template

-- ================================================================ the lexer

/-- A token, and whether the lexer was outside tags when it came to it. -/
structure Reading where
  outside : Bool
  token : Token

/-- The tokens from a cursor on, with where the lexer was at each of them
and where it is at the end. -/
def trace (outside : Bool) (cur : Cursor) : Except Fault (List Reading × Bool) :=
  match _h : tagLexer.next (textBefore outside cur).2 with
  | (.error fault, _) => .error fault
  | (.ok none, _) => .ok ((textBefore outside cur).1.map (Reading.mk outside), outside)
  | (.ok (some t), after) =>
    if _ht : t.kind = .eof then
      .ok (((textBefore outside cur).1 ++ [t]).map (Reading.mk outside), outside)
    else
      (trace (isClosing t) after).map fun (rs, last) =>
        ((textBefore outside cur).1.map (Reading.mk outside) ++ ⟨outside, t⟩ :: rs, last)
termination_by cur.rest.length
decreasing_by exact Nat.lt_of_lt_of_le (Lexer.next_shorter _h _ht) (textBefore_rest_le outside cur)

/-- What is traced, without the measure that bounds it. -/
theorem trace_eq (outside : Bool) (cur : Cursor) :
    trace outside cur =
      match tagLexer.next (textBefore outside cur).2 with
      | (.error fault, _) => .error fault
      | (.ok none, _) => .ok ((textBefore outside cur).1.map (Reading.mk outside), outside)
      | (.ok (some t), after) =>
        if t.kind = .eof then
          .ok (((textBefore outside cur).1 ++ [t]).map (Reading.mk outside), outside)
        else
          (trace (isClosing t) after).map fun (rs, last) =>
            ((textBefore outside cur).1.map (Reading.mk outside) ++ ⟨outside, t⟩ :: rs, last) := by
  rw [trace]
  split
  · next hnext => rw [hnext]
  · next hnext => rw [hnext]
  · next hnext => simp only [hnext, dite_eq_ite]

theorem trace_of_next {outside : Bool} {cur after : Cursor} {t : Token}
    (h : tagLexer.next (textBefore outside cur).2 = (.ok (some t), after)) (ht : t.kind ≠ .eof) :
    trace outside cur = (trace (isClosing t) after).map fun (rs, last) =>
      ((textBefore outside cur).1.map (Reading.mk outside) ++ ⟨outside, t⟩ :: rs, last) := by
  rw [trace_eq, h]
  exact if_neg ht

theorem trace_of_none {outside : Bool} {cur after : Cursor}
    (h : tagLexer.next (textBefore outside cur).2 = (.ok none, after)) :
    trace outside cur = .ok ((textBefore outside cur).1.map (Reading.mk outside), outside) := by
  rw [trace_eq, h]

theorem map_token_map (outside : Bool) (ts : List Token) :
    (ts.map (Reading.mk outside)).map Reading.token = ts := by
  rw [List.map_map]
  exact List.map_id ts

/-- Noting where the lexer is changes none of its tokens. -/
theorem trace_tokens (outside : Bool) (cur : Cursor) :
    ((trace outside cur).map fun result => result.1.map Reading.token)
      = tokensFrom outside cur := by
  fun_induction trace outside cur with
  | case1 outside cur fault after hnext =>
      rw [tokensFrom_eq, hnext]
      rfl
  | case2 outside cur after hnext =>
      rw [tokensFrom_eq, hnext]
      exact congrArg Except.ok (map_token_map outside _)
  | case3 outside cur t after hnext heof =>
      rw [tokensFrom_eq, hnext]
      dsimp only
      rw [if_pos heof]
      exact congrArg Except.ok (map_token_map outside _)
  | case4 outside cur t after hnext heof ih =>
      rw [tokensFrom_eq, hnext]
      dsimp only
      rw [if_neg heof, ← ih]
      cases trace (isClosing t) after with
      | error fault => rfl
      | ok result =>
          refine congrArg Except.ok ?_
          show (List.map (Reading.mk outside) (textBefore outside cur).1
            ++ ⟨outside, t⟩ :: result.1).map Reading.token = _
          rw [List.map_append, map_token_map]
          rfl

/-- What is left outside and inside tags, read token by token. Outside, a
text is followed by an opening bracket or by nothing. -/
inductive Traced : (outside : Bool) → (front rest : List Char) → List Reading → (last : Bool) → Prop
  | stop {outside : Bool} {front gap : List Char} (blank : ∀ b ∈ gap, b ≤ ' ')
      (inside : outside = true → gap = []) : Traced outside front gap [] outside
  | text {front rest : List Char} {rs : List Reading} {last : Bool} {t : Token}
      (kind : t.kind = .special) (filled : t.text.toList ≠ []) (place : t.place = .after front)
      (whole : ¬['\x7b', '\x7b'] <:+: t.text.toList)
      (alone : ∀ r ∈ rs.head?, r.token.kind ≠ .special)
      (more : Traced true (front ++ t.text.toList) rest rs last) :
      Traced true front (t.text.toList ++ rest) (⟨true, t⟩ :: rs) last
  | opening {front rest : List Char} {rs : List Reading} {last : Bool} {t : Token}
      (opens : isOpening t = true) (filled : t.text.toList ≠ []) (place : t.place = .after front)
      (more : Traced false (front ++ t.text.toList) rest rs last) :
      Traced true front (t.text.toList ++ rest) (⟨true, t⟩ :: rs) last
  | inside {front gap rest : List Char} {rs : List Reading} {last : Bool} {t : Token}
      (blank : ∀ b ∈ gap, b ≤ ' ') (kind : t.kind ≠ .special) (filled : t.text.toList ≠ [])
      (place : t.place = .after (front ++ gap))
      (more : Traced (isClosing t) (front ++ gap ++ t.text.toList) rest rs last) :
      Traced false front (gap ++ (t.text.toList ++ rest)) (⟨false, t⟩ :: rs) last

section

variable {front rest : List Char} {rs : List Reading} {last : Bool}

/-- A text in front of a tag is a token unless it is empty. -/
theorem Traced.behind_text {text : List Char} (whole : ¬['\x7b', '\x7b'] <:+: text)
    (alone : ∀ r ∈ rs.head?, r.token.kind ≠ .special)
    (more : Traced true (front ++ text) rest rs last) :
    Traced true front (text ++ rest)
      ((if text = [] then [] else [⟨.special, String.ofList text, .after front⟩]).map
        (Reading.mk true) ++ rs) last := by
  by_cases htext : text = []
  · subst htext
    rw [List.append_nil] at more
    exact more
  · have ht : (Token.mk .special (String.ofList text) (.after front)).text.toList = text :=
      String.toList_ofList
    rw [if_neg htext]
    have h := @Traced.text front rest rs last ⟨.special, String.ofList text, .after front⟩ rfl
    rw [ht] at h
    exact h htext rfl whole alone more

theorem isClosing_of_isOpening {t : Token} (h : isOpening t = true) : isClosing t = false := by
  unfold isOpening at h
  unfold isClosing
  rw [Bool.and_eq_true, Bool.or_eq_true, beq_iff_eq, beq_iff_eq, beq_iff_eq] at h
  obtain ⟨hkind, htext | htext⟩ := h
  · rw [hkind, htext]
    decide
  · rw [hkind, htext]
    decide

theorem kind_of_isOpening {t : Token} (h : isOpening t = true) : t.kind = .symbol := by
  unfold isOpening at h
  rw [Bool.and_eq_true, beq_iff_eq] at h
  exact h.1

end

/-- What it is for what is left to be read to its end. -/
def Readable (outside : Bool) (front cs : List Char) : Prop :=
  ∃ rs last, trace outside (.behind front cs) = .ok (rs, last) ∧ Traced outside front cs rs last

theorem length_behind_lt {gap text rest : List Char} (htext : text ≠ []) :
    rest.length < (gap ++ (text ++ rest)).length := by
  have hpos := List.length_pos_iff.2 htext
  rw [List.length_append, List.length_append]
  omega

/-- Outside tags, the text up to the next tag is read, and its opening
bracket. -/
theorem readable_outside {cs : List Char}
    (hshorter : ∀ front rest, rest.length < cs.length → Readable false front rest)
    (front : List Char) : Readable true front cs := by
  obtain ⟨rest, hcs, hopens, hwhole⟩ := proseText_split cs
  generalize htext : Rule.proseText cs = text at hcs hwhole
  subst hcs
  have hbefore := textBefore_behind htext front
  rcases hopens with rfl | hopens
  · have htrace := trace_of_none (by rw [hbefore]; exact Lexer.next_end _)
    have hend : Traced true (front ++ text) [] [] true := .stop (by simp) (fun _ => rfl)
    refine ⟨_, true, htrace, ?_⟩
    rw [hbefore]
    simpa only [List.append_nil] using hend.behind_text hwhole (by simp)
  · obtain ⟨t, behind, hopening, ht⟩ := next_opening hopens (front ++ text)
    obtain ⟨hfilled, hplace, rfl, hnext⟩ := ht
    obtain ⟨rs, last, htrace, hmore⟩ :=
      hshorter (front ++ text ++ t.text.toList) behind (length_behind_lt hfilled)
    have hkind := kind_of_isOpening hopening
    have hspecial : t.kind ≠ .special := by rw [hkind]; exact nofun
    have heof : t.kind ≠ .eof := by rw [hkind]; exact nofun
    have hstep := trace_of_next (by rw [hbefore]; exact hnext) heof
    rw [isClosing_of_isOpening hopening, htrace, hbefore] at hstep
    refine ⟨_, last, hstep, (Traced.opening hopening hfilled hplace hmore).behind_text hwhole ?_⟩
    intro r hr
    cases hr
    exact hspecial

/-- Inside a tag, blanks are passed and the token behind them is read. -/
theorem readable_inside {cs : List Char}
    (hshorter : ∀ outside front rest, rest.length < cs.length → Readable outside front rest)
    (front : List Char) : Readable false front cs := by
  obtain ⟨gap, more, rfl, hgap, hsame, hmore⟩ := next_tag front cs
  rcases hmore with rfl | ⟨t, rest, hkind, hfilled, hplace, rfl, hnext⟩
  · rw [Lexer.next_end] at hsame
    rw [List.append_nil] at hsame ⊢
    exact ⟨[], false, trace_of_none hsame, .stop hgap nofun⟩
  · obtain ⟨rs, last, htrace, hmore⟩ := hshorter (isClosing t) (front ++ gap ++ t.text.toList) rest
      (length_behind_lt hfilled)
    have hspecial : t.kind ≠ .special := by rcases hkind with hk | hk | hk <;> simp [hk]
    have heof : t.kind ≠ .eof := by rcases hkind with hk | hk | hk <;> simp [hk]
    rw [hnext] at hsame
    have hstep := @trace_of_next false (.behind front _) _ _ hsame heof
    rw [htrace] at hstep
    exact ⟨_, last, hstep, .inside hgap hspecial hfilled hplace hmore⟩

/-- Whatever is left can be read to its end. -/
theorem readable (outside : Bool) (front cs : List Char) : Readable outside front cs := by
  -- on the length of what is left: behind a token there is less
  induction hlength : cs.length using Nat.strongRecOn generalizing outside front cs with
  | ind n ih =>
      subst hlength
      have hshorter (outside : Bool) (front rest : List Char) (h : rest.length < cs.length) :
          Readable outside front rest := ih rest.length h outside front rest rfl
      cases outside with
      | true => exact readable_outside (hshorter false) front
      | false => exact readable_inside hshorter front

-- ================================================================= layout

/-- How readings make up what is behind `front`: blanks may be missing in
front of a token and at the end, but inside tags only; no token is empty,
and each has the place of its first character. -/
inductive LaidOut : (front rest : List Char) → List Reading → (last : Bool) → Prop
  | stop {front gap : List Char} {last : Bool} (blank : ∀ b ∈ gap, b ≤ ' ')
      (inside : last = true → gap = []) : LaidOut front gap [] last
  | token {front gap rest : List Char} {r : Reading} {rs : List Reading} {last : Bool}
      (blank : ∀ b ∈ gap, b ≤ ' ') (inside : r.outside = true → gap = [])
      (filled : r.token.text.toList ≠ []) (place : r.token.place = .after (front ++ gap))
      (more : LaidOut (front ++ gap ++ r.token.text.toList) rest rs last) :
      LaidOut front (gap ++ (r.token.text.toList ++ rest)) (r :: rs) last

/-- A token may follow at once. -/
theorem LaidOut.next {front rest : List Char} {r : Reading} {rs : List Reading} {last : Bool}
    (filled : r.token.text.toList ≠ []) (place : r.token.place = .after front)
    (more : LaidOut (front ++ r.token.text.toList) rest rs last) :
    LaidOut front (r.token.text.toList ++ rest) (r :: rs) last := by
  have h := @LaidOut.token front [] rest r rs last (by simp) (fun _ => rfl) filled
  rw [List.append_nil] at h
  exact h place more

-- =============================================================== agreement

/-- What it is for the machine to be in step with the lexer at a token: it
is outside tags where the lexer is, it accepts whatever the lexer finds
there, and it finds no text inside a tag. -/
structure Mode.InStep (mode : Mode) (r : Reading) : Prop where
  agrees : mode.wanted = .text ↔ r.outside = true
  accepts : mode.wanted = .text → ∃ result, mode.step r.token = .ok result
  plain : mode.wanted ≠ .text → r.token.kind ≠ .special

namespace Traced

variable {outside last : Bool} {front rest : List Char} {rs : List Reading} {r : Reading}
  {mode : Mode}

theorem laidOut (h : Traced outside front rest rs last) : LaidOut front rest rs last := by
  induction h with
  | stop blank inside => exact .stop blank inside
  | @text front rest rs last t kind filled place whole alone more ih =>
      exact @LaidOut.next front rest ⟨true, t⟩ rs last filled place ih
  | @opening front rest rs last t opens filled place more ih =>
      exact @LaidOut.next front rest ⟨true, t⟩ rs last filled place ih
  | @inside front gap rest rs last t blank kind filled place more ih =>
      exact @LaidOut.token front gap rest ⟨false, t⟩ rs last blank nofun filled place ih

/-- A text has no two opening braces in it, and what follows it is none. -/
theorem whole (h : Traced outside front rest rs last) {before after : List Reading}
    (hrs : rs = before ++ r :: after) (hr : r.token.kind = .special) :
    ¬['\x7b', '\x7b'] <:+: r.token.text.toList
      ∧ ∀ s ∈ after.head?, s.token.kind ≠ .special := by
  induction h generalizing before with
  | stop => simp at hrs
  | text kind filled place whole alone more ih =>
      cases before with
      | nil =>
          cases hrs
          exact ⟨whole, alone⟩
      | cons s before =>
          cases hrs
          exact ih rfl
  | opening opens filled place more ih =>
      cases before with
      | nil =>
          cases hrs
          rw [kind_of_isOpening opens] at hr
          cases hr
      | cons s before =>
          cases hrs
          exact ih rfl
  | inside blank kind filled place more ih =>
      cases before with
      | nil =>
          cases hrs
          exact absurd hr kind
      | cons s before =>
          cases hrs
          exact ih rfl

/-- Where the machine is outside tags if and only if the lexer is, it is in
step with the first token, and the two agree again behind it. -/
theorem head (h : Traced outside front rest (r :: rs) last)
    (hmode : mode.wanted = .text ↔ outside = true) :
    mode.InStep r ∧ ∀ next p, mode.step r.token = .ok (next, p) →
      ∃ outside front rest, Traced outside front rest rs last
        ∧ (next.wanted = .text ↔ outside = true) := by
  cases h with
  | text kind filled place whole alone more =>
      have houtside := hmode.2 rfl
      have hstep := step_text houtside kind
      refine ⟨⟨hmode, fun _ => ⟨_, hstep⟩, fun h => absurd houtside h⟩, fun next p h => ?_⟩
      rw [hstep] at h
      cases h
      exact ⟨true, _, _, more, hmode⟩
  | opening opens filled place more =>
      have houtside := hmode.2 rfl
      have hkind := kind_of_isOpening opens
      have hstep := step_opening houtside (by rw [hkind]; exact nofun) opens
      refine ⟨⟨hmode, fun _ => ⟨_, hstep⟩, fun h => absurd houtside h⟩, fun next p h => ?_⟩
      rw [hstep] at h
      cases h
      exact ⟨false, _, _, more, nofun, nofun⟩
  | inside blank kind filled place more =>
      have hinside : mode.wanted ≠ .text := fun h => absurd (hmode.1 h) Bool.false_ne_true
      refine ⟨⟨hmode, fun h => absurd h hinside, fun _ => kind⟩, fun next p h => ?_⟩
      exact ⟨_, _, _, more, outside_of_step hinside h⟩

/-- The machine is in step with the lexer at every token it comes to. -/
theorem inStep (h : Traced outside front rest rs last)
    (hmode : mode.wanted = .text ↔ outside = true) {before after : List Reading} {mode' : Mode}
    (hrs : rs = before ++ r :: after)
    (hrun : mode.run (before.map Reading.token) = .ok mode') : mode'.InStep r := by
  induction before generalizing outside front rest rs mode with
  | nil =>
      cases hrun
      rw [hrs] at h
      exact (h.head hmode).1
  | cons s before ih =>
      rw [hrs] at h
      rw [List.map_cons, Mode.run] at hrun
      cases hstep : mode.step s.token with
      | error fault => rw [hstep] at hrun; cases hrun
      | ok result =>
          rw [hstep] at hrun
          obtain ⟨outside, front, rest, hmore, hnext⟩ := (h.head hmode).2 result.1 result.2 hstep
          exact ih hmore hnext rfl hrun

/-- The machine is outside tags at the end if and only if the lexer is. -/
theorem inStep_last (h : Traced outside front rest rs last)
    (hmode : mode.wanted = .text ↔ outside = true) {mode' : Mode}
    (hrun : mode.run (rs.map Reading.token) = .ok mode') : mode'.wanted = .text ↔ last = true := by
  induction rs generalizing outside front rest mode with
  | nil =>
      cases hrun
      cases h
      exact hmode
  | cons s rs ih =>
      rw [List.map_cons, Mode.run] at hrun
      cases hstep : mode.step s.token with
      | error fault => rw [hstep] at hrun; cases hrun
      | ok result =>
          rw [hstep] at hrun
          obtain ⟨outside, front, rest, hmore, hnext⟩ := (h.head hmode).2 result.1 result.2 hstep
          exact ih hmore hnext hrun

end Traced

/-- The lexer and the machine keep in step on every template. The lexer
always gets to the end, and its tokens are the template but for blanks inside
tags. No text has two opening braces in it or stands next to another text.
When the machine reads the tokens, at each token and at the end it is outside
tags if and only if the lexer was; it accepts all that it meets outside and
meets no text inside; and it is never inside a tag that is not open. -/
theorem tokens_in_step (template : String) :
    ∃ rs last, trace true (.start template) = .ok (rs, last)
      ∧ tokens template = .ok (rs.map Reading.token)
      ∧ LaidOut [] template.toList rs last
      ∧ (∀ before r after, rs = before ++ r :: after → r.token.kind = .special →
          ¬['\x7b', '\x7b'] <:+: r.token.text.toList
            ∧ ∀ s ∈ after.head?, s.token.kind ≠ .special)
      ∧ (∀ before r after mode, rs = before ++ r :: after →
          Mode.outside.run (before.map Reading.token) = .ok mode → mode.InStep r)
      ∧ (∀ mode, Mode.outside.run (rs.map Reading.token) = .ok mode →
          (mode.wanted = .text ↔ last = true))
      ∧ ∀ fault, pieces (rs.map Reading.token) = .error fault →
          fault.cause.code ≠ .internal := by
  obtain ⟨rs, last, htrace, htraced⟩ := readable true [] template.toList
  have houtside : Mode.outside.wanted = .text ↔ true = true := ⟨fun _ => rfl, fun _ => rfl⟩
  have htokens : tokens template = .ok (rs.map Reading.token) := by
    have herase := trace_tokens true (.start template)
    rw [Cursor.start_eq_behind, htrace] at herase
    exact herase.symm
  refine ⟨rs, last, htrace, htokens, htraced.laidOut, ?_, ?_, ?_, ?_⟩
  · intro before r after hrs hspecial
    exact htraced.whole hrs hspecial
  · intro before r after mode hrs hrun
    exact htraced.inStep houtside hrs hrun
  · intro mode hrun
    exact htraced.inStep_last houtside hrun
  · intro fault hfault
    exact code_of_pieces hfault

end Template

end Formula
