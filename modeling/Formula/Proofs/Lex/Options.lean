/-
What the options of a lexer do, said apart from how it reads. Main statement:
the tokens of a text are its raw tokens with one pass for each kind of option
behind the other (`tokens_eq_processed`): some are dropped, then numbers and
quoted texts are changed one by one, then blanks that stand next to each other
now are joined. The raw tokens are the same whatever the options are.

The lexer does all of it while it reads. What makes it come to the same is
that a token is changed without a look at its neighbours (`collect_eq_raw`),
and that a run of blanks may be joined from either end (`joinBlanks_eq`).
-/
import Mathlib.Data.List.SplitBy
import Formula.Proofs.Lex.Reading

namespace Formula

namespace Lexer

-- ============================================================= raw tokens

/-- The tokens that are read from a cursor on, one after another, up to the
first that says that the text is over. -/
def raw (lx : Lexer) (cur : Cursor) : Except Fault (List Token) :=
  match _h : lx.read cur with
  | (.error fault, _) => .error fault
  | (.ok t, after) => if _ht : t.kind = .eof then .ok [t] else (lx.raw after).map (t :: ·)
termination_by cur.rest.length
decreasing_by exact read_shorter _h _ht

-- ================================================================= passes

/-- Whether tokens of a kind are dropped. -/
def Options.drops (o : Options) : Token.Kind → Bool
  | .unknown => o.skipUnknown
  | .whitespace => o.skipWhitespaces
  | .comment => o.skipComments
  | .eof => o.skipEof
  | _ => false

/-- A number as one whose kind is not told apart; other tokens as they are. -/
def asNumber (t : Token) : Token :=
  match t.kind with
  | .integer | .float | .hexDecimal => { t with kind := .number }
  | _ => t

/-- A quoted text as the rule for quotes decodes it; other tokens as they
are. -/
def asText (lx : Lexer) (t : Token) : Token :=
  match lx.quotes, t.kind, t.text.toList with
  | some _, .quoted, q :: r => { t with text := String.ofList (Quoted.decode q (q :: r)) }
  | _, _, _ => t

/-- Whether two tokens are blanks both. -/
def bothBlank (t u : Token) : Bool := t.kind == .whitespace && u.kind == .whitespace

/-- The token of a run: the first one with the texts of all. -/
def joinRun : List Token → Option Token
  | [] => none
  | t :: ts => some { t with text := String.join ((t :: ts).map Token.text) }

/-- Each longest run of blanks as one token. -/
def joinRuns (ts : List Token) : List Token := (ts.splitBy bothBlank).filterMap joinRun

/-- What options make of raw tokens. -/
def processed (lx : Lexer) (ts : List Token) : List Token :=
  let kept := ts.filter fun t => !lx.options.drops t.kind
  let numbered := if lx.options.unifyNumbers then kept.map asNumber else kept
  let decoded := if lx.options.decodeStrings then numbered.map lx.asText else numbered
  if lx.options.mergeWhitespaces then joinRuns decoded else decoded

section

variable {lx : Lexer}

-- ========================================================== single tokens

/-- A token is finished in two passes. -/
theorem finish_eq (lx : Lexer) (t : Token) :
    lx.finish t =
      let numbered := if lx.options.unifyNumbers then asNumber t else t
      if lx.options.decodeStrings then lx.asText numbered else numbered := by
  obtain ⟨kind, text, place⟩ := t
  unfold finish asNumber asText
  cases kind
  case quoted =>
    cases lx.options.decodeStrings <;> cases lx.quotes <;> cases hchars : text.toList <;>
      simp [hchars]
  all_goals
    cases lx.options.unifyNumbers <;> cases lx.options.decodeStrings <;> cases lx.quotes <;> rfl

/-- Finishing the tokens one by one is two passes over all. -/
theorem map_finish (lx : Lexer) (ts : List Token) :
    ts.map lx.finish =
      let numbered := if lx.options.unifyNumbers then ts.map asNumber else ts
      if lx.options.decodeStrings then numbered.map lx.asText else numbered := by
  rw [show lx.finish = _ from funext lx.finish_eq]
  cases lx.options.unifyNumbers <;> cases lx.options.decodeStrings <;> simp

/-- What reads on is dropped by its kind alone. -/
theorem Options.drops_eq_skips {o : Options} {k : Token.Kind} (hk : k ≠ .eof) :
    o.drops k = o.skips k := by
  cases k <;> first | rfl | exact absurd rfl hk

theorem kind_finish (lx : Lexer) (t : Token) :
    (lx.finish t).kind = t.kind ∨ (lx.finish t).kind = .number := by
  unfold finish
  split
  case h_4 => split <;> exact .inl rfl
  case h_5 => exact .inl rfl
  all_goals
    split
    · exact .inr rfl
    · exact .inl rfl

theorem kind_finish_ne_eof {t : Token} (ht : t.kind ≠ .eof) : (lx.finish t).kind ≠ .eof := by
  rcases lx.kind_finish t with h | h <;> rw [h]
  · exact ht
  · exact nofun

-- ============================================================ all tokens

/-- The raw tokens are kept and finished one by one. -/
theorem collect_eq_raw (lx : Lexer) (cur : Cursor) :
    lx.collect cur
      = (lx.raw cur).map fun ts =>
          (ts.filter fun t => !lx.options.drops t.kind).map lx.finish := by
  fun_induction raw lx cur with
  | case1 cur fault after hread =>
      exact collect_of_error (by rw [next_eq, hread])
  | case2 cur t after hread ht =>
      rw [collect_eq, next_eq, hread]
      dsimp only
      rw [if_pos ht]
      have hfinish : lx.finish t = t := finish_eq_of_kind (by simp [ht])
      cases hskip : lx.options.skipEof <;> simp [Except.map, Options.drops, ht, hskip, hfinish]
  | case3 cur t after hread ht ih =>
      cases hskip : lx.options.skips t.kind with
      | true =>
          have hnext : lx.next cur = lx.next after := by
            rw [next_eq, hread]
            dsimp only
            rw [if_neg ht, if_pos hskip]
          rw [collect_congr hnext, ih]
          cases lx.raw after <;> simp [Except.map, Options.drops_eq_skips ht, hskip]
      | false =>
          have hnext : lx.next cur = (.ok (some (lx.finish t)), after) := by
            rw [next_eq, hread]
            dsimp only
            rw [if_neg ht, hskip, if_neg Bool.false_ne_true]
          rw [collect_of_next hnext (kind_finish_ne_eof ht), ih]
          cases lx.raw after <;> simp [Except.map, Options.drops_eq_skips ht, hskip]

-- ================================================================ joining

/-- The first run begins with the first element. -/
theorem exists_splitBy_cons {α : Type} (r : α → α → Bool) (a : α) (l : List α) :
    ∃ run runs, (a :: l).splitBy r = (a :: run) :: runs := by
  have hflat := List.flatten_splitBy r (a :: l)
  have hnil := List.nil_notMem_splitBy r (a :: l)
  match hsplit : (a :: l).splitBy r with
  | [] => exact absurd (List.splitBy_eq_nil.1 hsplit) (List.cons_ne_nil a l)
  | [] :: runs => exact absurd List.mem_cons_self (hsplit ▸ hnil)
  | (b :: run) :: runs =>
      rw [hsplit] at hflat
      cases hflat
      exact ⟨run, runs, rfl⟩

/-- What goes with the first element of a run makes the run longer. -/
theorem splitBy_cons_of_rel {α : Type} {r : α → α → Bool} {a b : α} {l run : List α}
    {runs : List (List α)} (hab : r a b = true) (hsplit : (b :: l).splitBy r = (b :: run) :: runs) :
    (a :: b :: l).splitBy r = (a :: b :: run) :: runs := by
  obtain ⟨hflat, hnil, hruns, hjoints⟩ := List.splitBy_eq_iff.1 hsplit
  refine List.splitBy_eq_iff.2 ⟨by simp [hflat], by simpa using hnil, ?_, ?_⟩
  · rintro run' (_ | ⟨_, hmem⟩)
    · exact List.isChain_cons_cons.2 ⟨hab, hruns _ List.mem_cons_self⟩
    · exact hruns run' (List.mem_cons_of_mem _ hmem)
  · rw [List.isChain_cons] at hjoints ⊢
    refine ⟨fun next hnext => ?_, hjoints.2⟩
    obtain ⟨_, hb, hjoint⟩ := hjoints.1 next hnext
    exact ⟨List.cons_ne_nil _ _, hb, by rwa [List.getLast_cons_cons]⟩

theorem bothBlank_iff {t u : Token} :
    bothBlank t u = true ↔ t.kind = .whitespace ∧ u.kind = .whitespace := by
  simp [bothBlank]

/-- Joining from the end of the tokens joins their runs. -/
theorem joinBlanks_eq (ts : List Token) : joinBlanks ts = joinRuns ts := by
  induction ts with
  | nil => rfl
  | cons t ts ih =>
      cases ts with
      | nil =>
          rw [joinRuns, List.splitBy_of_isChain (List.cons_ne_nil t []) (List.isChain_singleton t)]
          simp [joinBlanks, joinRun]
      | cons u us =>
          by_cases hblank : bothBlank t u = true
          · obtain ⟨run, runs, hsplit⟩ := exists_splitBy_cons bothBlank u us
            rw [joinRuns, hsplit] at ih
            rw [joinRuns, splitBy_cons_of_rel hblank hsplit, joinBlanks, ih]
            simp [joinRun, bothBlank_iff.1 hblank]
          · have hsplit : (t :: u :: us).splitBy bothBlank = [t] :: (u :: us).splitBy bothBlank :=
              List.splitBy_append_cons (l := [t]) us (by simpa using hblank)
            rw [joinBlanks_apart (mt (fun h => bothBlank_iff.2 h.symm) hblank), ih, joinRuns,
              joinRuns, hsplit]
            simp [joinRun]

-- ========================================================= what options do

/-- The raw tokens are read without a look at the options. -/
theorem raw_options (lx : Lexer) (options : Options) (cur : Cursor) :
    { lx with options := options }.raw cur = lx.raw cur := by
  have hread : ∀ cur, { lx with options := options }.read cur = lx.read cur := fun _ => rfl
  fun_induction raw lx cur with
  | case1 cur fault after h => rw [raw]; split <;> simp_all
  | case2 cur t after h ht => rw [raw]; split <;> simp_all
  | case3 cur t after h ht ih => rw [raw]; split <;> simp_all

/-- The tokens of a text are its raw tokens with one pass after another; they
fail as the raw tokens fail. The raw tokens do not depend on the options. -/
theorem tokens_eq_processed (lx : Lexer) (text : String) :
    lx.tokens text = (lx.raw (.start text)).map lx.processed
      ∧ ∀ (options : Options) (cur : Cursor),
          { lx with options := options }.raw cur = lx.raw cur := by
  refine ⟨?_, lx.raw_options⟩
  rw [tokens_eq, collect_eq_raw]
  cases lx.raw (.start text) with
  | error fault => rfl
  | ok ts => simp only [Except.map, joinBlanks_eq, map_finish, processed]

end

end Lexer

end Formula
