/-
Which tokens the machine that reads tags accepts, and where it fails. Main
statement: it accepts what the grammar writes and nothing else, and otherwise
fails at the first token that fits nothing, for the one reason there is
(`pieces_grammar`).

Wherever a run gets to, what it has read is the beginning of something
written, and the mode of the machine is all that matters for how it may go on:
that is the invariant (`Stands`), which each step keeps. From it follows that
the machine gets past some tokens just if they can be completed
(`viable_iff_run`). So the token at which it fails is the first that cannot be
followed, and it is left to tell failures apart.
-/
import Formula.Proofs.Template.Grammar

namespace Formula

namespace Template

-- =================================================== what has been read

/-- What stands in a tag that is not closed yet, with what the machine waits
for and knows of the tag. -/
inductive Partial (place : Place) : (raw : Bool) → List Token → Wanted → OpenTag → Prop
  | start (raw : Bool) : Partial place raw [] .start (begun raw place)
  | sectionStart {m : Token} (sign : IsSign "#" m) :
      Partial place false [m] .qualifier ⟨false, .sectionStart, none, [], place⟩
  | ifSection {m q : Token} (sign : IsSign "#" m) (first : q.kind = .word)
      (qualifier : sameName q.text "if" = true) :
      Partial place false [m, q] .name ⟨false, .sectionStart, none, [], place⟩
  | unlessSection {m q : Token} (sign : IsSign "#" m) (first : q.kind = .word)
      (qualifier : sameName q.text "unless" = true) :
      Partial place false [m, q] .name ⟨false, .invertedStart, none, [], place⟩
  | inverted {m : Token} (sign : IsSign "^" m) :
      Partial place false [m] .name ⟨false, .invertedStart, none, [], place⟩
  | ended {m : Token} (sign : IsSign "/" m) :
      Partial place false [m] .name ⟨false, .sectionEnd, none, [], place⟩
  | comment {m : Token} {ts : List Token} (sign : IsSign "!" m)
      (inside : ∀ t ∈ ts, isClosing t = false) :
      Partial place false (m :: ts) .comment
        ⟨false, .comment, none, (ts.map Token.text).reverse, place⟩
  | whole {raw : Bool} {body : List Token} {kind : PieceKind} {name : Option String}
      (inside : Body raw body kind name) :
      Partial place raw body .close ⟨raw, kind, name, [], place⟩

/-- Where the machine may be behind some tokens. -/
inductive Stands : List Token → Mode → Prop
  | outside {front : List Token} {ps : List Piece} (written : Written front ps) :
      Stands front .outside
  | inside {done body : List Token} {ps : List Piece} {raw : Bool} {o : Token} {wanted : Wanted}
      {tag : OpenTag} (written : Written done ps) (opens : IsSign (openBracket raw) o)
      (inside : Partial o.place raw body wanted tag) (stays : ∀ t ∈ body, isClosing t = false) :
      Stands (done ++ o :: body) ⟨wanted, some tag⟩

theorem marked_cases {text : String} {kind : PieceKind} {wanted : Wanted}
    (h : marked? text = some (kind, wanted)) :
    text = "#" ∧ kind = .sectionStart ∧ wanted = .qualifier
      ∨ text = "^" ∧ kind = .invertedStart ∧ wanted = .name
      ∨ text = "/" ∧ kind = .sectionEnd ∧ wanted = .name
      ∨ text = "!" ∧ kind = .comment ∧ wanted = .comment := by
  unfold marked? at h
  split at h
  · next htext => cases h; exact .inl ⟨htext, rfl, rfl⟩
  split at h
  · next htext => cases h; exact .inr (.inl ⟨htext, rfl, rfl⟩)
  split at h
  · next htext => cases h; exact .inr (.inr (.inl ⟨htext, rfl, rfl⟩))
  split at h
  · next htext => cases h; exact .inr (.inr (.inr ⟨htext, rfl, rfl⟩))
  · cases h

/-- Where only a name may come, or a word in front of it, all else is refused. -/
theorem word_of_read {tag : OpenTag} {wanted : Wanted} {t : Token} {result : OpenTag × Wanted}
    (hread : tag.read wanted t = .ok result) (hwanted : wanted = .qualifier ∨ wanted = .name) :
    t.kind = .word := by
  unfold OpenTag.read at hread
  split at hread
  case h_4 _ hword => exact hword
  case h_5 _ hword => exact hword
  case h_6 => cases hread
  all_goals exact absurd hwanted (by decide)

/-- Nothing but a closing bracket may follow on a whole tag. -/
theorem read_close (tag : OpenTag) (t : Token) : tag.read .close t = .error (unexpected t) := rfl

/-- At the beginning of a tag, there is a name or, in one that is not raw, a
mark. -/
theorem start_of_read {raw : Bool} {place : Place} {t : Token} {tag : OpenTag} {wanted : Wanted}
    (hread : (begun raw place).read .start t = .ok (tag, wanted)) :
    t.kind = .word ∧ tag = { begun raw place with name := some t.text } ∧ wanted = .close
      ∨ raw = false ∧ t.kind = .symbol
        ∧ ∃ kind, marked? t.text = some (kind, wanted)
          ∧ tag = ⟨false, kind, none, [], place⟩ := by
  unfold OpenTag.read at hread
  split at hread
  case h_1 hwanted => cases hwanted
  case h_2 _ hword => cases hread; exact .inl ⟨hword, rfl, rfl⟩
  case h_3 _ hkind =>
    split at hread
    · next hraw hmark =>
      cases hread
      cases raw
      · exact .inr ⟨rfl, hkind, _, hmark, rfl⟩
      · cases hraw
    · cases hread
  case h_4 hwanted _ => cases hwanted
  case h_5 hwanted _ => cases hwanted
  case h_6 => cases hread

theorem stays_concat {body : List Token} {t : Token} (hbody : ∀ u ∈ body, isClosing u = false)
    (ht : isClosing t = false) : ∀ u ∈ body ++ [t], isClosing u = false := by
  intro u hu
  rcases List.mem_append.1 hu with hu | hu
  · exact hbody u hu
  · rwa [List.mem_singleton.1 hu]

/-- Reading on inside a tag goes on from what stands there. -/
theorem Partial.read {place : Place} {raw : Bool} {body : List Token} {wanted wanted' : Wanted}
    {tag tag' : OpenTag} {t : Token} (h : Partial place raw body wanted tag)
    (hstays : isClosing t = false) (hread : tag.read wanted t = .ok (tag', wanted')) :
    Partial place raw (body ++ [t]) wanted' tag' := by
  have hsection : PieceKind.sectionStart ≠ .sectionEnd := nofun
  have hinverted : PieceKind.invertedStart ≠ .sectionEnd := nofun
  cases h with
  | start =>
      obtain ⟨hword, rfl, rfl⟩ | ⟨rfl, hkind, kind, hmark, rfl⟩ := start_of_read hread
      · cases raw with
        | true => exact .whole (.rawVariable hword)
        | false => exact .whole (.escapedVariable hword)
      · obtain ⟨htext, rfl, rfl⟩ | ⟨htext, rfl, rfl⟩ | ⟨htext, rfl, rfl⟩ | ⟨htext, rfl, rfl⟩ :=
          marked_cases hmark
        · exact .sectionStart ⟨hkind, htext⟩
        · exact .inverted ⟨hkind, htext⟩
        · exact .ended ⟨hkind, htext⟩
        · exact .comment ⟨hkind, htext⟩ nofun
  | sectionStart hm =>
      have hword := word_of_read hread (.inl rfl)
      by_cases hif : sameName t.text "if" = true
      · rw [read_if hword hif] at hread
        cases hread
        exact .ifSection hm hword hif
      by_cases hunless : sameName t.text "unless" = true
      · rw [read_unless hword hunless] at hread
        cases hread
        exact .unlessSection hm hword hunless
      · have hplain : isQualifier t = false := by simp [isQualifier, hif, hunless]
        rw [read_plain hword hplain] at hread
        cases hread
        exact .whole (.sectionStart hm hword hplain)
  | ifSection hm hfirst hqualifier =>
      have hword := word_of_read hread (.inr rfl)
      rw [read_name hsection hword] at hread
      cases hread
      exact .whole (.ifSection hm hfirst hqualifier hword)
  | unlessSection hm hfirst hqualifier =>
      have hword := word_of_read hread (.inr rfl)
      rw [read_name hinverted hword] at hread
      cases hread
      exact .whole (.unlessSection hm hfirst hqualifier hword)
  | inverted hm =>
      have hword := word_of_read hread (.inr rfl)
      rw [read_name hinverted hword] at hread
      cases hread
      exact .whole (.inverted hm hword)
  | ended hm =>
      have hword := word_of_read hread (.inr rfl)
      rw [read_end rfl rfl hword] at hread
      cases hread
      exact .whole (.namedEnd hm hword)
  | @comment m ts hm hinside =>
      cases hread
      have hwords : Partial place false _ _ _ := .comment hm (stays_concat hinside hstays)
      simpa using hwords
  | whole => rw [read_close] at hread; cases hread

-- ============================================================ completing

theorem Written.append {ts us : List Token} {ps qs : List Piece} (hfront : Written ts ps)
    (hback : Written us qs) : Written (ts ++ us) (ps ++ qs) := by
  induction hfront with
  | nil => exact hback
  | cons hfirst _ ih =>
      rw [List.append_assoc]
      exact .cons hfirst ih

theorem Written.concat {ts us : List Token} {ps : List Piece} {p : Piece} (hfront : Written ts ps)
    (hlast : Spells us p) : Written (ts ++ us) (ps ++ [p]) := by
  have hone := Written.cons hlast .nil
  rw [List.append_nil] at hone
  exact hfront.append hone

section

variable {place : Place} {raw : Bool} {body : List Token} {wanted : Wanted} {tag : OpenTag}

theorem Partial.raw_eq (h : Partial place raw body wanted tag) : tag.raw = raw := by
  cases h <;> rfl

/-- A whole tag has a name, unless it is the end of a section. -/
theorem Body.named {kind : PieceKind} {name : Option String} (h : Body raw body kind name) :
    name ≠ none ∨ kind = .sectionEnd := by
  cases h with
  | ended => exact .inr rfl
  | namedEnd => exact .inr rfl
  | _ => exact .inl nofun

/-- Where a name or a word in front of it may come, any word may. -/
theorem Partial.word {w : Token} (h : Partial place raw body wanted tag) (hclose : wanted ≠ .close)
    (hcomment : wanted ≠ .comment) (hword : w.kind = .word) :
    ∃ more kind name, Body raw (body ++ w :: more) kind name := by
  cases h with
  | start =>
      cases raw with
      | true => exact ⟨[], _, _, .rawVariable hword⟩
      | false => exact ⟨[], _, _, .escapedVariable hword⟩
  | sectionStart hm =>
      by_cases hif : sameName w.text "if" = true
      · exact ⟨[w], _, _, .ifSection hm hword hif hword⟩
      by_cases hunless : sameName w.text "unless" = true
      · exact ⟨[w], _, _, .unlessSection hm hword hunless hword⟩
      · exact ⟨[], _, _, .sectionStart hm hword (by simp [isQualifier, hif, hunless])⟩
  | ifSection hm hfirst hqualifier => exact ⟨[], _, _, .ifSection hm hfirst hqualifier hword⟩
  | unlessSection hm hfirst hqualifier =>
      exact ⟨[], _, _, .unlessSection hm hfirst hqualifier hword⟩
  | inverted hm => exact ⟨[], _, _, .inverted hm hword⟩
  | ended hm => exact ⟨[], _, _, .namedEnd hm hword⟩
  | comment => exact absurd rfl hcomment
  | whole => exact absurd rfl hclose

/-- What stands in a tag is the beginning of a whole one. -/
theorem Partial.completed (h : Partial place raw body wanted tag) :
    ∃ more kind name, Body raw (body ++ more) kind name := by
  by_cases hclose : wanted = .close
  · subst hclose
    cases h with
    | whole hinside => exact ⟨[], _, _, by rwa [List.append_nil]⟩
  by_cases hcomment : wanted = .comment
  · subst hcomment
    cases h with
    | comment hm hinside => exact ⟨[], _, _, by rw [List.append_nil]; exact .comment hm hinside⟩
  · let anyWord : Token := ⟨.word, "", .origin⟩
    obtain ⟨more, kind, name, hbody⟩ := h.word (w := anyWord) hclose hcomment rfl
    exact ⟨anyWord :: more, kind, name, hbody⟩

/-- The right bracket closes a tag, or the tag has no name yet. -/
theorem Partial.finish {c : Token} (h : Partial place raw body wanted tag)
    (hc : c.text = closeBracket raw) :
    (∃ kind name, Body raw body kind name ∧ tag.finish wanted c = .ok ⟨kind, name, place⟩)
      ∨ wanted ≠ .close ∧ wanted ≠ .comment
        ∧ tag.finish wanted c = .error (.atPlace .missingName c.place) := by
  have hclosing : c.text = tag.closing := by rw [hc, ← h.raw_eq]; rfl
  have hunnamed {wanted : Wanted} (hcomment : wanted ≠ .comment) (hname : tag.name = none)
      (hkind : tag.kind ≠ .sectionEnd) :
      tag.finish wanted c = .error (.atPlace .missingName c.place) := by
    unfold OpenTag.finish
    rw [if_neg (not_not_intro hclosing), if_neg hcomment, if_pos ⟨hname, hkind⟩]
  cases h with
  | start => exact .inr ⟨nofun, nofun, hunnamed nofun rfl (by cases raw <;> exact nofun)⟩
  | sectionStart => exact .inr ⟨nofun, nofun, hunnamed nofun rfl nofun⟩
  | ifSection => exact .inr ⟨nofun, nofun, hunnamed nofun rfl nofun⟩
  | unlessSection => exact .inr ⟨nofun, nofun, hunnamed nofun rfl nofun⟩
  | inverted => exact .inr ⟨nofun, nofun, hunnamed nofun rfl nofun⟩
  | ended hm => exact .inl ⟨_, _, .ended hm, finish_named hclosing nofun (.inr rfl)⟩
  | comment hm hinside =>
      refine .inl ⟨_, _, .comment hm hinside, ?_⟩
      rw [finish_comment hclosing, List.reverse_reverse]
  | whole hinside => exact .inl ⟨_, _, hinside, finish_named hclosing nofun hinside.named⟩

end

-- ================================================================ a step

section

variable {front : List Token} {mode next : Mode} {t : Token} {p : Option Piece}

theorem wanted_of_partial {place : Place} {raw : Bool} {body : List Token} {wanted : Wanted}
    {tag : OpenTag} (h : Partial place raw body wanted tag) : wanted ≠ .text := by
  cases h <;> exact nofun

/-- Inside a tag, a step reads on or closes it. -/
theorem step_inside {wanted : Wanted} {tag : OpenTag} (hwanted : wanted ≠ .text) (t : Token) :
    Mode.step ⟨wanted, some tag⟩ t =
      if isClosing t then (tag.finish wanted t).map fun p => (.outside, some p)
      else (tag.read wanted t).map fun (tag, wanted) => (⟨wanted, some tag⟩, none) :=
  if_neg hwanted

/-- Every step goes on from where the machine stands. -/
theorem Stands.step (h : Stands front mode) (hstep : mode.step t = .ok (next, p)) :
    Stands (front ++ [t]) next := by
  cases h with
  | outside hwritten =>
      have hsteps := Mode.outside.steps t
      rw [hstep] at hsteps
      cases hsteps with
      | text _ hkind => exact .outside (hwritten.concat (.text hkind))
      | opening _ hopens =>
          obtain ⟨raw, hraw⟩ := isOpening_iff.1 hopens
          rw [start_of_opens hraw]
          exact .inside hwritten hraw (.start raw) nofun
      | closing hinside => exact absurd rfl hinside
      | reading hinside => exact absurd rfl hinside
  | @inside done body ps raw o wanted tag hwritten hopens hinside hstays =>
      rw [step_inside (wanted_of_partial hinside)] at hstep
      split at hstep
      · next hcloses =>
        cases hfinish : tag.finish wanted t with
        | error fault => rw [hfinish] at hstep; cases hstep
        | ok piece =>
            rw [hfinish] at hstep
            cases hstep
            have htext := text_of_finish hfinish
            rw [closing_eq, hinside.raw_eq] at htext
            obtain ⟨kind, name, hbody, -⟩ | ⟨-, -, herror⟩ := hinside.finish htext
            · have hright := isSign_of_closing hcloses htext
              rw [List.append_assoc]
              exact .outside (hwritten.concat (.tag hopens hbody hright))
            · rw [herror] at hfinish
              cases hfinish
      · next hcloses =>
        cases hread : tag.read wanted t with
        | error fault => rw [hread] at hstep; cases hstep
        | ok result =>
            rw [hread] at hstep
            cases hstep
            rw [List.append_assoc, List.cons_append]
            have ht := Bool.eq_false_iff.2 hcloses
            exact .inside hwritten hopens (hinside.read ht hread) (stays_concat hstays ht)

theorem viable_of_body {done body more : List Token} {ps : List Piece} {raw : Bool} {o : Token}
    {kind : PieceKind} {name : Option String} (hwritten : Written done ps)
    (hopens : IsSign (openBracket raw) o) (hbody : Body raw (body ++ more) kind name) :
    Viable (done ++ o :: body) := by
  let bracket : Token := ⟨.symbol, closeBracket raw, .origin⟩
  refine ⟨more ++ [bracket], ps ++ [⟨kind, name, o.place⟩], ?_⟩
  rw [List.append_assoc, List.cons_append, ← List.append_assoc body]
  exact hwritten.concat (.tag hopens hbody ⟨rfl, rfl⟩)

/-- Wherever the machine stands, the tokens can be completed. -/
theorem Stands.viable (h : Stands front mode) : Viable front := by
  cases h with
  | outside hwritten => exact ⟨[], _, by rwa [List.append_nil]⟩
  | inside hwritten hopens hinside =>
      obtain ⟨more, kind, name, hbody⟩ := hinside.completed
      exact viable_of_body hwritten hopens hbody

/-- What is refused fits nothing, and the reason is given. -/
theorem Stands.misfit {fault : Fault} (h : Stands front mode) (hstep : mode.step t = .error fault) :
    ∃ cause, Misfit front t cause ∧ fault = .atPlace cause t.place := by
  cases h with
  | outside hwritten =>
      have hsteps := Mode.outside.steps t
      rw [hstep] at hsteps
      cases hsteps with
      | neither => exact ⟨_, .outside ⟨_, hwritten⟩, rfl⟩
      | untagged hinside => exact absurd rfl hinside
      | refused hinside => exact absurd rfl hinside
  | @inside done body ps raw o wanted tag hwritten hopens hinside hstays =>
      have hopen : OpenAt (done ++ o :: body) raw o :=
        ⟨done, body, rfl, ⟨ps, hwritten⟩, hopens, hstays⟩
      rw [step_inside (wanted_of_partial hinside)] at hstep
      split at hstep
      · next hcloses =>
        by_cases htext : t.text = closeBracket raw
        · obtain ⟨kind, name, -, hfinish⟩ | ⟨hclose, hcomment, hfinish⟩ := hinside.finish htext
          · rw [hfinish] at hstep
            cases hstep
          · rw [hfinish] at hstep
            cases hstep
            refine ⟨_, .unnamed hopen (isSign_of_closing hcloses htext) fun w hword => ?_, rfl⟩
            obtain ⟨more, kind, name, hbody⟩ := hinside.word hclose hcomment hword
            rw [List.append_cons] at hbody
            rw [List.append_assoc, List.cons_append]
            exact viable_of_body hwritten hopens hbody
        · have hother : t.text ≠ tag.closing := by rwa [closing_eq, hinside.raw_eq]
          rw [finish_mismatched hother] at hstep
          cases hstep
          refine ⟨_, .mismatched hopen hcloses htext, ?_⟩
          rw [hopens.2, opening_eq, hinside.raw_eq]
      · next hcloses =>
        cases hread : tag.read wanted t with
        | ok result => rw [hread] at hstep; cases hstep
        | error fault' =>
            rw [hread] at hstep
            cases hstep
            exact ⟨_, .inside hopen (Bool.eq_false_iff.2 hcloses), fault_of_read hread⟩

end

-- ================================================================= runs

/-- Wherever a run gets to, the machine stands behind the tokens. -/
theorem stands_of_run {front ts : List Token} {mode next : Mode} (h : Stands front mode)
    (hrun : mode.run ts = .ok next) : Stands (front ++ ts) next := by
  induction ts generalizing front mode with
  | nil =>
      cases hrun
      rwa [List.append_nil]
  | cons t ts ih =>
      rw [Mode.run] at hrun
      cases hstep : mode.step t with
      | error fault => rw [hstep] at hrun; cases hrun
      | ok result =>
          rw [hstep] at hrun
          rw [List.append_cons]
          exact ih (h.step hstep) hrun

/-- Where text may come next, all that was read is written. -/
theorem Stands.written {front : List Token} {mode : Mode} (h : Stands front mode)
    (hwanted : mode.wanted = .text) : mode = .outside ∧ ∃ ps, Written front ps := by
  cases h with
  | outside hwritten => exact ⟨rfl, _, hwritten⟩
  | inside _ _ hinside => exact absurd hwanted (wanted_of_partial hinside)

/-- Behind what is written, the machine is outside. -/
theorem run_of_written {ts : List Token} {ps : List Piece} (h : Written ts ps) :
    Mode.outside.run ts = .ok .outside := by
  obtain ⟨mode, hrun, hwanted⟩ := run_of_pieces (pieces_of_written h)
  obtain ⟨rfl, -⟩ := (stands_of_run (.outside .nil) hrun).written hwanted
  exact hrun

/-- The machine gets past some tokens just if they can be completed. -/
theorem viable_iff_run {front : List Token} :
    Viable front ↔ ∃ mode, Mode.outside.run front = .ok mode := by
  constructor
  · rintro ⟨more, ps, hwritten⟩
    have hrun := run_of_written hwritten
    rw [Mode.run_append] at hrun
    cases hfront : Mode.outside.run front with
    | ok mode => exact ⟨mode, rfl⟩
    | error fault => rw [hfront] at hrun; cases hrun
  · rintro ⟨mode, hrun⟩
    exact (stands_of_run (.outside .nil) hrun).viable

/-- Without a closing bracket, a run stays inside the tag. -/
theorem run_inside {body : List Token} {wanted : Wanted} {tag : OpenTag} {mode : Mode}
    (hwanted : wanted ≠ .text) (hbody : ∀ t ∈ body, isClosing t = false)
    (hrun : Mode.run ⟨wanted, some tag⟩ body = .ok mode) :
    mode.wanted ≠ .text ∧ mode.tag.map OpenTag.raw = some tag.raw := by
  induction body generalizing wanted tag with
  | nil => cases hrun; exact ⟨hwanted, rfl⟩
  | cons t body ih =>
      rw [Mode.run, step_inside hwanted, hbody t List.mem_cons_self,
        if_neg Bool.false_ne_true] at hrun
      cases hread : tag.read wanted t with
      | error fault => rw [hread] at hrun; cases hrun
      | ok result =>
          rw [hread] at hrun
          rw [← raw_of_read hread]
          exact ih (wanted_of_read hread) (fun u hu => hbody u (List.mem_cons_of_mem t hu)) hrun

/-- Where a tag is open, the machine is inside a tag of that sort. -/
theorem OpenAt.mode {front : List Token} {raw : Bool} {o : Token} {mode : Mode}
    (h : OpenAt front raw o) (hrun : Mode.outside.run front = .ok mode) :
    mode.wanted ≠ .text ∧ mode.tag.map OpenTag.raw = some raw := by
  obtain ⟨done, body, rfl, ⟨ps, hwritten⟩, hopens, hstays⟩ := h
  rw [Mode.run_append, run_of_written hwritten] at hrun
  change Mode.outside.run (o :: body) = .ok mode at hrun
  rw [Mode.run, step_of_opens hopens] at hrun
  change Mode.run ⟨.start, some (begun raw o.place)⟩ body = .ok mode at hrun
  have hstart : Wanted.start ≠ .text := by decide
  exact run_inside hstart hstays hrun

theorem OpenAt.text {front : List Token} {raw : Bool} {o : Token} (h : OpenAt front raw o) :
    o.text = openBracket raw := by
  obtain ⟨done, body, -, -, hopens, -⟩ := h
  exact hopens.2

/-- There is one reason at most why a token does not fit. -/
theorem Misfit.unique {front : List Token} {t : Token} {cause cause' : Cause}
    (hviable : Viable front) (h : Misfit front t cause) (h' : Misfit front t cause') :
    cause' = cause := by
  obtain ⟨mode, hrun⟩ := viable_iff_run.1 hviable
  have hapart {raw : Bool} {o : Token} (hopen : OpenAt front raw o) :
      ¬∃ ps, Written front ps := by
    rintro ⟨ps, hwritten⟩
    rw [run_of_written hwritten] at hrun
    cases hrun
    exact (hopen.mode (run_of_written hwritten)).1 rfl
  have hsame {raw raw' : Bool} {o o' : Token} (hopen : OpenAt front raw o)
      (hopen' : OpenAt front raw' o') : raw' = raw := by
    have hmode := (hopen.mode hrun).2
    rw [(hopen'.mode hrun).2] at hmode
    cases hmode
    rfl
  have hright {raw : Bool} (hcloses : IsSign (closeBracket raw) t) : isClosing t = true :=
    isClosing_iff.2 ⟨raw, hcloses⟩
  cases h with
  | outside houtside =>
      cases h' with
      | outside => rfl
      | mismatched hopen' => exact absurd houtside (hapart hopen')
      | unnamed hopen' => exact absurd houtside (hapart hopen')
      | inside hopen' => exact absurd houtside (hapart hopen')
  | mismatched hopen hcloses hother =>
      cases h' with
      | outside houtside => exact absurd houtside (hapart hopen)
      | mismatched hopen' => rw [hopen'.text, hopen.text, hsame hopen hopen']
      | unnamed hopen' hcloses' => exact absurd (hsame hopen hopen' ▸ hcloses'.2) hother
      | inside _ hstays' => exact absurd hcloses (Bool.eq_false_iff.1 hstays')
  | unnamed hopen hcloses =>
      cases h' with
      | outside houtside => exact absurd houtside (hapart hopen)
      | mismatched hopen' _ hother' => exact absurd (hsame hopen' hopen ▸ hcloses.2) hother'
      | unnamed => rfl
      | inside _ hstays' => exact absurd (hright hcloses) (Bool.eq_false_iff.1 hstays')
  | inside hopen hstays =>
      cases h' with
      | outside => rfl
      | mismatched _ hcloses' => exact absurd hcloses' (Bool.eq_false_iff.1 hstays)
      | unnamed _ hcloses' => exact absurd (hright hcloses') (Bool.eq_false_iff.1 hstays)
      | inside => rfl

/-- Pieces are found of what is written only. -/
theorem written_of_pieces {ts : List Token} {ps : List Piece} (h : pieces ts = .ok ps) :
    Written ts ps := by
  obtain ⟨mode, hrun, hwanted⟩ := run_of_pieces h
  obtain ⟨-, ps', hwritten⟩ := (stands_of_run (.outside .nil) hrun).written hwanted
  rw [List.nil_append] at hwritten
  have hpieces := pieces_of_written hwritten
  rw [h] at hpieces
  cases hpieces
  exact hwritten

/-- A failure is that of the first token that fits nothing or, where all fit,
that of a tag which is not closed at the end. -/
theorem misfit_of_pieces {ts : List Token} {fault : Fault} (h : pieces ts = .error fault) :
    (∃ front t rest cause, ts = front ++ t :: rest ∧ Viable front ∧ ¬Viable (front ++ [t])
        ∧ (∀ cause', Misfit front t cause' ↔ cause' = cause) ∧ fault = .atPlace cause t.place)
      ∨ ∃ raw o last, OpenAt ts raw o ∧ Viable ts ∧ ts.getLast? = some last
        ∧ fault = .atPlace .endOfTemplate last.place := by
  obtain hrun | ⟨mode, hrun, hwanted, rfl⟩ := run_of_fault h
  · obtain ⟨front, t, rest, mode, rfl, hfront, hrefused⟩ := Mode.refused_of_run hrun
    obtain ⟨cause, hmisfit, hfault⟩ := (stands_of_run (.outside .nil) hfront).misfit hrefused
    have hviable : Viable front := viable_iff_run.2 ⟨mode, hfront⟩
    have hdead : ¬Viable (front ++ [t]) := by
      rw [viable_iff_run, Mode.run_concat, hfront]
      show ¬∃ next, (mode.step t).map Prod.fst = .ok next
      rw [hrefused]
      exact nofun
    have honly (cause' : Cause) : Misfit front t cause' ↔ cause' = cause :=
      ⟨hmisfit.unique hviable, fun h => h ▸ hmisfit⟩
    exact .inl ⟨front, t, rest, cause, rfl, hviable, hdead, honly, hfault⟩
  · have hviable : Viable ts := viable_iff_run.2 ⟨mode, hrun⟩
    have hstands : Stands ts mode := stands_of_run (.outside .nil) hrun
    cases hstands with
    | outside => exact absurd rfl hwanted
    | @inside done body ps raw o wanted tag hwritten hopens hinside hstays =>
        obtain ⟨last, hlast⟩ : ∃ last, (done ++ o :: body).getLast? = some last :=
          ⟨_, List.getLast?_eq_some_getLast (by simp)⟩
        refine .inr ⟨raw, o, last, ⟨done, body, rfl, ⟨ps, hwritten⟩, hopens, hstays⟩, hviable,
          hlast, ?_⟩
        rw [endPlace, hlast]
        rfl

/-- The pieces of tokens are found just if the tokens are written in the
grammar, and are the pieces written. Otherwise the failure is that of the
first token that fits nothing: what could be completed before it cannot be
any more, for one reason. If there is none, the tokens end inside a tag. -/
theorem pieces_grammar (ts : List Token) :
    (∀ ps, pieces ts = .ok ps ↔ Written ts ps)
      ∧ ∀ fault, pieces ts = .error fault →
          (∃ front t rest cause, ts = front ++ t :: rest
              ∧ Viable front ∧ ¬Viable (front ++ [t])
              ∧ (∀ cause', Misfit front t cause' ↔ cause' = cause)
              ∧ fault = .atPlace cause t.place)
            ∨ ∃ raw o last, OpenAt ts raw o ∧ Viable ts ∧ ts.getLast? = some last
              ∧ fault = .atPlace .endOfTemplate last.place :=
  ⟨fun _ => ⟨written_of_pieces, pieces_of_written⟩, fun _ => misfit_of_pieces⟩

/-- The tag of a section without a name. -/
def nameless : List Token :=
  [⟨.symbol, opening, ⟨1, 1⟩⟩, ⟨.symbol, "#", ⟨1, 3⟩⟩, ⟨.symbol, closing, ⟨1, 4⟩⟩]

theorem pieces_grammar_nameless :
    pieces nameless = .error (.atPlace .missingName ⟨1, 4⟩)
      ∧ ((∃ front t rest cause, nameless = front ++ t :: rest
            ∧ Viable front ∧ ¬Viable (front ++ [t])
            ∧ (∀ cause', Misfit front t cause' ↔ cause' = cause)
            ∧ Fault.atPlace .missingName ⟨1, 4⟩ = .atPlace cause t.place)
          ∨ ∃ raw o last, OpenAt nameless raw o ∧ Viable nameless
            ∧ nameless.getLast? = some last
            ∧ Fault.atPlace .missingName ⟨1, 4⟩ = .atPlace .endOfTemplate last.place) :=
  ⟨rfl, (pieces_grammar nameless).2 _ rfl⟩

end Template

end Formula
