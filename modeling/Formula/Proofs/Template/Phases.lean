/-
The phases of a parser of templates against reading a template at once. The
loop over the tokens finds the pieces that `piecesFrom` does, and adds the
names that they refer to one by one, which are the distinct ones in the end.

Main statement: a parser reports and holds what is kept of an attempt to
read its input (`parse_eq`).
-/
import Formula.Template.Parser

namespace Formula

namespace Template

namespace Parser

open Act

-- ================================================================= pieces

/-- A piece adds the name that it refers to. -/
theorem register_eq (p : Parser) (piece : Piece) :
    register piece p
      = .ok () { p with names := Names.insertAll p.names piece.reference?.toList } := by
  unfold register
  cases piece.reference? with
  | none => rfl
  | some name => rfl

/-- What it is for a loop over tokens to find `x`: the same failure, or the
same pieces and the names that they refer to. -/
def Collects (p : Parser) (result : EStateM.Result Fault Parser (List Piece))
    (x : Except Fault (List Piece)) : Prop :=
  match x with
  | .error fault => ∃ q, result = .error fault q
  | .ok pieces =>
    result = .ok pieces
      { p with names := Names.insertAll p.names (pieces.filterMap Piece.reference?) }

/-- One piece more, and its name before those of the others. -/
theorem Collects.cons {p : Parser} {piece : Piece} {rest : Act Parser (List Piece)}
    {x : Except Fault (List Piece)}
    (h : Collects { p with names := Names.insertAll p.names piece.reference?.toList }
      (rest { p with names := Names.insertAll p.names piece.reference?.toList }) x) :
    Collects p ((do register piece; let pieces ← rest; return piece :: pieces) p)
      (x.map (piece :: ·)) := by
  rw [bind_ok (register_eq p piece)]
  cases x with
  | error fault =>
      obtain ⟨q, hq⟩ := h
      exact ⟨q, bind_error hq⟩
  | ok pieces =>
      have hnames : (piece :: pieces).filterMap Piece.reference?
          = piece.reference?.toList ++ pieces.filterMap Piece.reference? := by
        rw [List.filterMap_cons]
        cases piece.reference? with
        | none => rfl
        | some name => rfl
      rw [bind_ok h]
      show _ = _
      rw [hnames, Names.insertAll_append]
      rfl

/-- The loop over the tokens, from any mode and with any names known. -/
theorem collect_collects (last : Place) (mode : Mode) (ts : List Token) (p : Parser) :
    Collects p (collect last mode ts p) (piecesFrom last mode ts) := by
  induction ts generalizing mode p with
  | nil =>
      unfold collect piecesFrom
      split
      · exact rfl
      · exact ⟨p, rfl⟩
  | cons t ts ih =>
      unfold collect piecesFrom
      cases mode.step t with
      | error fault => exact ⟨p, rfl⟩
      | ok next =>
          obtain ⟨mode', piece⟩ := next
          cases piece with
          | none => exact ih mode' p
          | some piece => exact .cons (ih mode' _)

-- ================================================================= phases

/-- A parser finds in its pieces their tree. -/
theorem nest_finds (p : Parser) :
    Finds id (nest p) (do let nodes ← tree p.pieces; .ok { p with nodes := nodes }) := by
  unfold nest
  rw [get_bind]
  exact Finds.ofExcept_bind fun nodes => ⟨_, rfl, rfl⟩

/-- A parser that holds nothing but tokens and their source finds what
reading them at once does. -/
theorem split_finds (source : String) (tokens : List Token) :
    Finds id ((do split; nest : Act Parser Unit) { new with source := source, tokens := tokens })
      (Parsed.ofSource source tokens) := by
  have hcollect := collect_collects ((tokens.getLast?.map Token.place).getD .origin) .outside tokens
    { new with source := source, tokens := tokens }
  unfold split Parsed.ofSource Template.pieces
  rw [bind_assoc, get_bind, bind_assoc]
  cases hpieces : piecesFrom ((tokens.getLast?.map Token.place).getD .origin) .outside tokens with
  | error fault =>
      rw [hpieces] at hcollect
      obtain ⟨q, hq⟩ := hcollect
      exact ⟨q, bind_error hq⟩
  | ok pieces =>
      rw [hpieces] at hcollect
      have hnames := Names.insertAll_nil (pieces.filterMap Piece.reference?)
      have hcollected : collect ((tokens.getLast?.map Token.place).getD .origin) .outside tokens
          { new with source := source, tokens := tokens }
          = .ok pieces
            { new with
              source := source
              tokens := tokens
              names := Names.distinct (pieces.filterMap Piece.reference?) } := by
        rw [← hnames]
        exact hcollect
      rw [bind_ok hcollected]
      exact nest_finds _

/-- A new parser finds in an input what reading it at once does. -/
theorem work_finds (input : Input) : Finds id (work input new) (Parsed.ofInput input) := by
  cases input with
  | text text =>
      show Finds id ((load (.text text) >>= fun _ => do split; nest) new) (Parsed.ofText text)
      unfold load Parsed.ofText
      rw [bind_assoc]
      show Finds id (((Act.ofExcept (Template.tokens text) >>= _) >>= _) _) _
      rw [bind_assoc]
      refine Finds.ofExcept_bind fun tokens => ?_
      exact split_finds text tokens
  | tokens tokens => exact split_finds (String.join (tokens.map Token.text)) tokens

-- =============================================================== requests

/-- Forgetting everything leaves a new parser. -/
theorem cleared_eq (p : Parser) : p.cleared = new := rfl

/-- A parser reports and holds what is kept of an attempt to read its input,
whatever it was asked before. -/
theorem parse_eq (p : Parser) (input : Input) :
    p.parse input = Parsed.kept (Parsed.ofInput input) := by
  have hwork := work_finds input
  unfold parse
  rw [cleared_eq]
  cases hinput : Parsed.ofInput input with
  | error fault =>
      rw [hinput] at hwork
      obtain ⟨q, hq⟩ := hwork.attempt_error
      rw [hq]
      rfl
  | ok parsed =>
      rw [hinput] at hwork
      obtain ⟨q, hq, hparsed⟩ := hwork.attempt_ok
      rw [hq, ← hparsed]
      rfl

/-- A parser that fails is as new. -/
theorem parse_failed {p : Parser} {input : Input} (h : (p.parse input).1 ≠ none) :
    (p.parse input).2 = new := by
  obtain ⟨q, hq⟩ := attempt_failed h
  exact hq.trans (cleared_eq q)

end Parser

end Template

end Formula
