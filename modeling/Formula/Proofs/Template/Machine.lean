/-
What the machine that reads the tokens of a template can do. Main statements:
every step is one of seven (`Mode.steps`), from which follows that the
machine is never inside a tag that is not open (`code_of_pieces`).
-/
import Formula.Template.Piece

namespace Formula

namespace Template

-- ================================================================== runs

/-- The mode after some tokens. -/
def Mode.run (mode : Mode) : List Token → Except Fault Mode
  | [] => .ok mode
  | t :: ts =>
    match mode.step t with
    | .error fault => .error fault
    | .ok (next, _) => next.run ts

theorem Mode.run_append (mode : Mode) (ts us : List Token) :
    mode.run (ts ++ us) = (mode.run ts).bind fun mode => mode.run us := by
  induction ts generalizing mode with
  | nil => rfl
  | cons t ts ih =>
      rw [List.cons_append, Mode.run, Mode.run]
      cases mode.step t with
      | error fault => rfl
      | ok result => exact ih result.1

theorem Mode.run_concat (mode : Mode) (ts : List Token) (t : Token) :
    mode.run (ts ++ [t]) = (mode.run ts).bind fun mode => (mode.step t).map Prod.fst := by
  rw [Mode.run_append]
  congr 1
  funext mode
  rw [Mode.run]
  cases mode.step t <;> rfl

/-- A run breaks off at a token that the mode before it refuses. -/
theorem Mode.refused_of_run {mode : Mode} {ts : List Token} {fault : Fault}
    (h : mode.run ts = .error fault) :
    ∃ front t rest last, ts = front ++ t :: rest ∧ mode.run front = .ok last
      ∧ last.step t = .error fault := by
  induction ts generalizing mode with
  | nil => cases h
  | cons t ts ih =>
      rw [Mode.run] at h
      cases hstep : mode.step t with
      | error fault' =>
          rw [hstep] at h
          cases h
          exact ⟨[], t, ts, mode, rfl, rfl, hstep⟩
      | ok result =>
          rw [hstep] at h
          obtain ⟨front, u, rest, last, rfl, hrun, hrefused⟩ := ih h
          refine ⟨t :: front, u, rest, last, rfl, ?_, hrefused⟩
          rw [Mode.run, hstep]
          exact hrun

section

variable {mode next : Mode} {t : Token} {p : Option Piece}

/-- The pieces are read where the machine gets to the end of the tokens and
is outside tags there. -/
theorem piecesFrom_eq_run (last : Place) (mode : Mode) (ts : List Token) :
    ((piecesFrom last mode ts).map fun _ => ())
      = (mode.run ts).bind fun mode =>
          if mode.wanted = .text then .ok () else .error (.atPlace .endOfTemplate last) := by
  induction ts generalizing mode with
  | nil =>
      show (Except.map _ (if mode.wanted = .text then _ else _))
        = if mode.wanted = .text then _ else _
      split
      · rfl
      · rfl
  | cons t ts ih =>
      rw [piecesFrom, Mode.run]
      cases hstep : mode.step t with
      | error fault => rfl
      | ok result =>
          obtain ⟨next, p⟩ := result
          cases p with
          | none => exact ih next
          | some p =>
              rw [← ih next]
              show ((piecesFrom last next ts).map (p :: ·)).map _ = _
              cases piecesFrom last next ts <;> rfl

/-- The place to report for tokens that end inside a tag. -/
def endPlace (ts : List Token) : Place := (ts.getLast?.map Token.place).getD .origin

theorem pieces_eq_run (ts : List Token) :
    ((pieces ts).map fun _ => ())
      = (Mode.outside.run ts).bind fun mode =>
          if mode.wanted = .text then .ok () else .error (.atPlace .endOfTemplate (endPlace ts)) :=
  piecesFrom_eq_run (endPlace ts) .outside ts

/-- Where pieces are found, the machine is outside at the end. -/
theorem run_of_pieces {ts : List Token} {ps : List Piece} (h : pieces ts = .ok ps) :
    ∃ mode, Mode.outside.run ts = .ok mode ∧ mode.wanted = .text := by
  have hrun := pieces_eq_run ts
  rw [h] at hrun
  cases hmode : Mode.outside.run ts with
  | error fault => rw [hmode] at hrun; cases hrun
  | ok mode =>
      rw [hmode] at hrun
      change Except.ok () = if mode.wanted = .text then _ else _ at hrun
      split at hrun
      · next hwanted => exact ⟨mode, rfl, hwanted⟩
      · cases hrun

/-- Where none are found, a run breaks off or ends inside a tag. -/
theorem run_of_fault {ts : List Token} {fault : Fault} (h : pieces ts = .error fault) :
    Mode.outside.run ts = .error fault
      ∨ ∃ mode, Mode.outside.run ts = .ok mode ∧ mode.wanted ≠ .text
        ∧ fault = .atPlace .endOfTemplate (endPlace ts) := by
  have hrun := pieces_eq_run ts
  rw [h] at hrun
  cases hmode : Mode.outside.run ts with
  | error fault' =>
      rw [hmode] at hrun
      cases hrun
      exact .inl rfl
  | ok mode =>
      rw [hmode] at hrun
      change Except.error fault = if mode.wanted = .text then _ else _ at hrun
      split at hrun
      · cases hrun
      · next hwanted =>
        cases hrun
        exact .inr ⟨mode, rfl, hwanted, rfl⟩

-- ================================================================= steps

theorem wanted_of_marked {text : String} {kind : PieceKind} {wanted : Wanted}
    (h : marked? text = some (kind, wanted)) : wanted ≠ .text := by
  unfold marked? at h
  split at h
  · cases h; exact nofun
  split at h
  · cases h; exact nofun
  split at h
  · cases h; exact nofun
  split at h
  · cases h; exact nofun
  · cases h

/-- Reading on inside a tag stays inside. -/
theorem wanted_of_read {tag tag' : OpenTag} {wanted wanted' : Wanted}
    (h : tag.read wanted t = .ok (tag', wanted')) : wanted' ≠ .text := by
  unfold OpenTag.read at h
  split at h
  · cases h; exact nofun
  · cases h; exact nofun
  · split at h
    · next hmark =>
      cases h
      exact wanted_of_marked hmark
    · cases h
  · split at h
    · cases h; exact nofun
    split at h
    · cases h; exact nofun
    · cases h; exact nofun
  · split at h
    · cases h; exact nofun
    · cases h; exact nofun
  · cases h

/-- A tag stays raw or not. -/
theorem raw_of_read {tag tag' : OpenTag} {wanted wanted' : Wanted}
    (h : tag.read wanted t = .ok (tag', wanted')) : tag'.raw = tag.raw := by
  unfold OpenTag.read at h
  split at h
  · cases h; rfl
  · cases h; rfl
  · split at h
    · cases h; rfl
    · cases h
  · split at h
    · cases h; rfl
    split at h
    · cases h; rfl
    · cases h; rfl
  · split at h
    · cases h; rfl
    · cases h; rfl
  · cases h

/-- A token that does not go on with a tag is reported as such. -/
theorem fault_of_read {tag : OpenTag} {wanted : Wanted} {fault : Fault}
    (h : tag.read wanted t = .error fault) : fault = unexpected t := by
  unfold OpenTag.read at h
  split at h
  · cases h
  · cases h
  · split at h
    · cases h
    · cases h
      rfl
  · split at h
    · cases h
    split at h
    · cases h
    · cases h
  · split at h
    · cases h
    · cases h
  · cases h
    rfl

theorem code_of_read {tag : OpenTag} {wanted : Wanted} {fault : Fault}
    (h : tag.read wanted t = .error fault) : fault.cause.code ≠ .internal := by
  rw [fault_of_read h]
  exact nofun

theorem code_of_finish {tag : OpenTag} {wanted : Wanted} {fault : Fault}
    (h : tag.finish wanted t = .error fault) : fault.cause.code ≠ .internal := by
  unfold OpenTag.finish at h
  split at h
  · cases h; exact nofun
  split at h
  · cases h
  split at h
  · cases h; exact nofun
  · cases h

/-- What a step can do. -/
inductive Mode.Steps (mode : Mode) (t : Token) : Except Fault (Mode × Option Piece) → Prop
  | text (outside : mode.wanted = .text) (kind : t.kind = .special) :
      Steps mode t (.ok (mode, some ⟨.value, some t.text, t.place⟩))
  | opening (outside : mode.wanted = .text) (opens : isOpening t = true) :
      Steps mode t (.ok (⟨.start, some (.start t)⟩, none))
  | neither (outside : mode.wanted = .text) (kind : t.kind ≠ .special)
      (opens : isOpening t = false) : Steps mode t (.error (unexpected t))
  | untagged (inside : mode.wanted ≠ .text) (tag : mode.tag = none) :
      Steps mode t (.error (.atPlace .noOpenTag t.place))
  | closing {piece : Piece} (inside : mode.wanted ≠ .text) (closes : isClosing t = true) :
      Steps mode t (.ok (.outside, some piece))
  | reading {tag : OpenTag} {wanted : Wanted} (inside : mode.wanted ≠ .text)
      (closes : isClosing t = false) (stays : wanted ≠ .text) :
      Steps mode t (.ok (⟨wanted, some tag⟩, none))
  | refused {fault : Fault} (inside : mode.wanted ≠ .text) (code : fault.cause.code ≠ .internal) :
      Steps mode t (.error fault)

theorem Mode.steps (mode : Mode) (t : Token) : mode.Steps t (mode.step t) := by
  unfold Mode.step
  split
  · next houtside =>
    split
    · next hkind => exact .text houtside hkind
    split
    · next hopens => exact .opening houtside hopens
    · next hkind hopens => exact .neither houtside hkind (Bool.eq_false_iff.2 hopens)
  · next hinside =>
    split
    · next htag => exact .untagged hinside htag
    · next tag htag =>
      split
      · next hcloses =>
        cases hfinish : tag.finish mode.wanted t with
        | error fault => exact .refused hinside (code_of_finish hfinish)
        | ok piece => exact .closing hinside hcloses
      · next hcloses =>
        cases hread : tag.read mode.wanted t with
        | error fault => exact .refused hinside (code_of_read hread)
        | ok result =>
            exact .reading hinside (Bool.eq_false_iff.2 hcloses) (wanted_of_read hread)

theorem step_text (houtside : mode.wanted = .text) (ht : t.kind = .special) :
    mode.step t = .ok (mode, some ⟨.value, some t.text, t.place⟩) := by
  unfold Mode.step
  rw [if_pos houtside, if_pos ht]

theorem step_opening (houtside : mode.wanted = .text) (hkind : t.kind ≠ .special)
    (ht : isOpening t = true) : mode.step t = .ok (⟨.start, some (.start t)⟩, none) := by
  unfold Mode.step
  rw [if_pos houtside, if_neg hkind, if_pos ht]

/-- Reading on inside a tag makes no piece. -/
theorem piecesFrom_read {last : Place} {tag tag' : OpenTag} {wanted wanted' : Wanted}
    {ts : List Token} (hread : tag.read wanted t = .ok (tag', wanted')) (hwanted : wanted ≠ .text)
    (hclosing : isClosing t = false) :
    piecesFrom last ⟨wanted, some tag⟩ (t :: ts) = piecesFrom last ⟨wanted', some tag'⟩ ts := by
  have hstep : Mode.step ⟨wanted, some tag⟩ t = .ok (⟨wanted', some tag'⟩, none) := by
    unfold Mode.step
    rw [if_neg hwanted]
    dsimp only
    rw [hclosing, if_neg Bool.false_ne_true, hread]
    rfl
  rw [piecesFrom, hstep]

/-- The closing bracket of a tag makes its piece. -/
theorem piecesFrom_finish {last : Place} {tag : OpenTag} {wanted : Wanted} {piece : Piece}
    {ts : List Token} (hfinish : tag.finish wanted t = .ok piece) (hwanted : wanted ≠ .text)
    (hclosing : isClosing t = true) :
    piecesFrom last ⟨wanted, some tag⟩ (t :: ts)
      = (piecesFrom last .outside ts).map (piece :: ·) := by
  have hstep : Mode.step ⟨wanted, some tag⟩ t = .ok (.outside, some piece) := by
    unfold Mode.step
    rw [if_neg hwanted]
    dsimp only
    rw [if_pos hclosing, hfinish]
    rfl
  rw [piecesFrom, hstep]

/-- Inside a tag, the machine gets outside at a closing bracket and nowhere
else. -/
theorem outside_of_step (hinside : mode.wanted ≠ .text) (h : mode.step t = .ok (next, p)) :
    next.wanted = .text ↔ isClosing t = true := by
  have hsteps := mode.steps t
  rw [h] at hsteps
  cases hsteps with
  | text houtside => exact absurd houtside hinside
  | opening houtside => exact absurd houtside hinside
  | closing _ hcloses => exact ⟨fun _ => hcloses, fun _ => rfl⟩
  | reading _ hcloses hstays =>
      rw [hcloses]
      exact ⟨fun h => absurd h hstays, nofun⟩

/-- The modes of the machine: a tag is open unless text is wanted. -/
def Mode.Sound (mode : Mode) : Prop := mode.wanted ≠ .text → mode.tag ≠ none

/-- No step loses the open tag. -/
theorem Mode.Sound.step (hmode : mode.Sound) (h : mode.step t = .ok (next, p)) : next.Sound := by
  have hsteps := mode.steps t
  rw [h] at hsteps
  cases hsteps with
  | text => exact hmode
  | opening => exact fun _ => nofun
  | closing => exact fun h => absurd rfl h
  | reading => exact fun _ => nofun

/-- No run misses an open tag. -/
theorem Mode.Sound.code_of_run {ts : List Token} {fault : Fault} (hmode : mode.Sound)
    (h : mode.run ts = .error fault) : fault.cause.code ≠ .internal := by
  induction ts generalizing mode with
  | nil => cases h
  | cons t ts ih =>
      rw [Mode.run] at h
      have hsteps := mode.steps t
      cases hstep : mode.step t with
      | ok result =>
          rw [hstep] at h
          exact ih (hmode.step hstep) h
      | error fault' =>
          rw [hstep] at h hsteps
          cases h
          cases hsteps with
          | neither => exact nofun
          | untagged hinside htag => exact absurd htag (hmode hinside)
          | refused hinside hcode => exact hcode

end

/-- Whatever the tokens, the machine is never in a tag that is not open. -/
theorem code_of_pieces {ts : List Token} {fault : Fault} (h : pieces ts = .error fault) :
    fault.cause.code ≠ .internal := by
  obtain hrun | ⟨mode, -, -, rfl⟩ := run_of_fault h
  · exact Mode.Sound.code_of_run (fun h => absurd rfl h) hrun
  · exact nofun

end Template

end Formula
