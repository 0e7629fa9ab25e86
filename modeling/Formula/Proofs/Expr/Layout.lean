/-
Layout. White space, comments, ends of lines and the end of the text lay an
expression out, and places say where its tokens ended up; neither means
anything. Tokens of layout are no symbols (`symbols_filter`), and two lists that
agree in the kinds and texts of all other tokens spell symbols that are alike in
all but their places, so that readers take them alike.

Main statement: what a parser makes of tokens depends on the kinds and texts of
those that are not layout (`parse_written`). The operators of several words are
each one instruction, whatever layout is between the words.
-/
import Formula.Proofs.Expr.Completeness
import Formula.Proofs.Expr.Descent
import Formula.Proofs.Expr.Likeness
import Formula.Proofs.Expr.Naming

namespace Formula

-- ================================================================== layout

namespace Token

/-- Whether a token only lays a text out. -/
def isLayout (t : Token) : Bool :=
  match t.kind with
  | .whitespace | .comment | .eol | .eof => true
  | _ => false

/-- What it is for a token to be a word with certain capitals. -/
structure IsWord (t : Token) (w : String) : Prop where
  kind : t.kind = .word ∨ t.kind = .keyword
  text : capitals t.text = w

end Token

namespace Expr

/-- What is written, apart from its layout: kinds and texts in order. -/
def written (ts : List Token) : List (Token.Kind × String) :=
  (ts.filter fun t => !t.isLayout).map fun t => (t.kind, t.text)

/-- Symbols that may be anywhere, and are the same but for that. -/
def anywhere : Likeness := ⟨Eq, fun _ _ => True, fun _ => rfl, fun _ => trivial⟩

theorem classify_of_isLayout {t : Token} (h : t.isLayout = true) : classify t = .ok none := by
  unfold Token.isLayout at h
  unfold classify
  split at h
  · next hkind => rw [hkind]
  · next hkind => rw [hkind]
  · next hkind => rw [hkind]
  · next hkind => rw [hkind]
  · cases h

/-- Tokens of layout are no symbols. -/
theorem symbols_filter (ts : List Token) :
    symbols (ts.filter fun t => !t.isLayout) = symbols ts := by
  induction ts with
  | nil => rfl
  | cons t ts ih =>
      cases ht : t.isLayout with
      | true =>
          rw [List.filter_cons_of_neg (by rw [ht]; decide), ih, symbols, classify_of_isLayout ht]
      | false => rw [List.filter_cons_of_pos (by rw [ht]; decide), symbols, symbols, ih]

/-- What is written the same spells symbols that are the same but for where
they are. -/
theorem concur_symbols_written {ts us : List Token} (h : written ts = written us) :
    Concur anywhere.Faults (List.Forall₂ anywhere.Symbols) (symbols ts) (symbols us) := by
  rw [← symbols_filter ts, ← symbols_filter us]
  apply Likeness.concur_symbols
  rw [written, written, ← List.forall₂_eq_eq_eq, List.forall₂_map_left_iff,
    List.forall₂_map_right_iff] at h
  refine h.imp fun t u htu => ?_
  obtain ⟨hkind, htext⟩ := Prod.mk.inj htu
  exact .of_classify (classify_congr hkind htext) trivial

-- ============================================================ instructions

theorem eq_of_causes {c d : Cause} (h : anywhere.Causes c d) : c = d := by
  cases h with
  | same => rfl
  | wrongOperand htext => exact congrArg Cause.wrongOperand htext
  | leftover htext => exact congrArg Cause.leftover htext

theorem step_eq {i j : Instruction} (h : anywhere.Instructions i j) : i.step = j.step := by
  have hstep := h.step
  generalize i.step = s at hstep
  generalize j.step = t at hstep
  cases hstep with
  | constant v => rfl
  | «variable» htext => exact congrArg Step.variable htext
  | function htext => exact congrArg Step.function htext
  | array => rfl
  | monadic op htext => exact congrArg (Step.monadic op) htext
  | dyadic op htext => exact congrArg (Step.dyadic op) htext

theorem map_step_eq {c d : List Instruction} (h : List.Forall₂ anywhere.Instructions c d) :
    c.map Instruction.step = d.map Instruction.step := by
  induction h with
  | nil => rfl
  | cons hi _ ih => rw [List.map_cons, List.map_cons, step_eq hi, ih]

/-- Which variables instructions read does not depend on their places. -/
theorem variableNames_congr {c d : List Instruction}
    (h : c.map Instruction.step = d.map Instruction.step) : variableNames c = variableNames d := by
  have hreads (code : List Instruction) : code.filterMap Instruction.reads?
      = (code.map Instruction.step).filterMap fun s => Instruction.reads? ⟨s, .origin⟩ := by
    rw [List.filterMap_map]
    rfl
  unfold variableNames
  rw [hreads, hreads, h]

/-- What is compiled from what is written the same differs in places only. -/
theorem concur_ofTokens_written {ts us : List Token} (h : written ts = written us) :
    Concur (fun f g => f.cause = g.cause)
      (fun c d => c.code.map Instruction.step = d.code.map Instruction.step ∧ c.names = d.names)
      (Compiled.ofTokens ts) (Compiled.ofTokens us) := by
  refine (Likeness.concur_ofTokens (concur_symbols_written h)).imp ?_ ?_
  · rintro f g ⟨hcause, -⟩
    exact eq_of_causes hcause
  · rintro c d ⟨hcode, hc, hd⟩
    have hsteps := map_step_eq hcode
    exact ⟨hsteps, by rw [hc, hd, variableNames_congr hsteps]⟩

-- ================================================== operators of several words

/-- Whether tokens spell a phrase, and the tree it stands for. -/
def Writes (p : Phrase) (ts : List Token) (t : Tree) : Prop :=
  ∃ ss, symbols ts = .ok ss ∧ Derives p ss t

/-- The symbols of tokens that come one after the other. -/
theorem symbols_append {ts us : List Token} {ss rs : List Symbol} (hts : symbols ts = .ok ss)
    (hus : symbols us = .ok rs) : symbols (ts ++ us) = .ok (ss ++ rs) := by
  induction ts generalizing ss with
  | nil =>
      cases hts
      exact hus
  | cons t ts ih =>
      rw [symbols] at hts
      rw [List.cons_append, symbols]
      cases ht : classify t with
      | error cause =>
          rw [ht] at hts
          cases hts
      | ok meaning =>
          rw [ht] at hts
          cases meaning with
          | none => exact ih hts
          | some content =>
              cases hmore : symbols ts with
              | error fault =>
                  rw [hmore] at hts
                  cases hts
              | ok more =>
                  rw [hmore] at hts
                  cases hts
                  dsimp only
                  rw [ih hmore]
                  rfl

/-- Layout in front is no symbol. -/
theorem symbols_gap {gap : List Token} (hgap : ∀ t ∈ gap, t.isLayout = true) (ts : List Token) :
    symbols (gap ++ ts) = symbols ts := by
  have hnone : gap.filter (fun t => !t.isLayout) = [] := by
    rw [List.filter_eq_nil_iff]
    intro t ht
    rw [hgap t ht]
    decide
  rw [← symbols_filter (gap ++ ts), List.filter_append, hnone, List.nil_append, symbols_filter]

/-- The words that are parts of operators, with the parts. -/
def wordOperators : List (String × Part) :=
  [("IS", .is), ("NOT", .not), ("NULL", .null), ("LIKE", .like), ("IN", .isIn)]

theorem wordOperators_reserved : ∀ e ∈ wordOperators, e.1 ≠ "TRUE" ∧ e.1 ≠ "FALSE"
    ∧ (reserved.find? fun r => r.1 == e.1).map Prod.snd = some e.2 := by decide

/-- A word of an operator in front is a symbol of the part of the word. -/
theorem symbols_word_cons {t : Token} {w : String} {part : Part} (ht : t.IsWord w)
    (hw : (w, part) ∈ wordOperators) {ts : List Token} {ss : List Symbol}
    (hts : symbols ts = .ok ss) :
    symbols (t :: ts) = .ok (⟨part, .string t.text, t.place⟩ :: ss) := by
  obtain ⟨htrue, hfalse, hpart⟩ := wordOperators_reserved _ hw
  have hword : ofWord t.text = (part, .string t.text) := by
    unfold ofWord truth? reserved?
    rw [ht.text, if_neg htrue, if_neg hfalse, hpart]
    rfl
  rw [symbols, classify_of_word ht.kind, hword]
  dsimp only
  rw [hts]
  rfl

section

variable {ts us gap gap' : List Token} {l r t : Tree}

/-- `IS NOT NULL` behind an operand carries it on, with anything for layout
between the words. -/
theorem writes_isNotNull {i n u : Token} (hts : Writes (.chain .additive) ts l)
    (hi : i.IsWord "IS") (hn : n.IsWord "NOT") (hu : u.IsWord "NULL")
    (hgap : ∀ t ∈ gap, t.isLayout = true) (hgap' : ∀ t ∈ gap', t.isLayout = true) :
    Writes (.chain .additive) (ts ++ i :: (gap ++ n :: (gap' ++ [u])))
      (.monadic .isNotNull l i.text i.place) := by
  obtain ⟨ls, hls, hl⟩ := hts
  have hnull : symbols [u] = .ok _ :=
    symbols_word_cons hu (show ("NULL", Part.null) ∈ wordOperators by decide) rfl
  rw [← symbols_gap hgap'] at hnull
  have hnot := symbols_word_cons hn (show ("NOT", Part.not) ∈ wordOperators by decide) hnull
  rw [← symbols_gap hgap] at hnot
  have his := symbols_word_cons hi (show ("IS", Part.is) ∈ wordOperators by decide) hnot
  refine ⟨_, symbols_append hls his, .behind hl ?_⟩
  show ([Part.is, .not, .null], Joint.behind .isNotNull) ∈ Level.additive.table
  decide

/-- The operators that `NOT` makes of others, by the words behind it. -/
def negated : List (String × Dyadic) := [("LIKE", .notLike), ("IN", .notIn)]

/-- So does `NOT` with `LIKE` or `IN` and another operand. -/
theorem writes_negated {n m : Token} {e : String × Dyadic} (he : e ∈ negated)
    (hts : Writes (.chain .additive) ts l) (hus : Writes (.chain .multiplicative) us r)
    (hn : n.IsWord "NOT") (hm : m.IsWord e.1) (hgap : ∀ t ∈ gap, t.isLayout = true) :
    Writes (.chain .additive) (ts ++ n :: (gap ++ m :: us)) (.dyadic e.2 l r n.text n.place) := by
  obtain ⟨ls, hls, hl⟩ := hts
  obtain ⟨rs, hrs, hr⟩ := hus
  obtain ⟨part, hword, htable⟩ : ∃ part, (e.1, part) ∈ wordOperators
      ∧ ([Part.not, part], Joint.between e.2) ∈ Level.additive.table := by
    rcases List.mem_pair.1 he with rfl | rfl
    · exact ⟨.like, by decide, by decide⟩
    · exact ⟨.isIn, by decide, by decide⟩
  have hother := symbols_word_cons hm hword hrs
  rw [← symbols_gap hgap] at hother
  have hnot := symbols_word_cons hn (show ("NOT", Part.not) ∈ wordOperators by decide) hother
  have hspells : Level.additive.Spells
      [⟨.not, .string n.text, n.place⟩, ⟨part, .string m.text, m.place⟩] (.between e.2) := htable
  exact ⟨_, symbols_append hls hnot, .between hl hspells hr⟩

/-- Tokens that spell a whole expression are parsed to its code. -/
theorem parse_of_writes (h : Writes (.chain .additive) ts t) (hdepth : t.depth ≤ maxDepth)
    (p : Parser) :
    (p.parse (.tokens ts)).1 = none ∧ (p.parse (.tokens ts)).2.code = t.code := by
  obtain ⟨ss, hss, ht⟩ := h
  have htree : tree ss = .ok t :=
    tree_eq_ok_iff.2 ⟨.operand (.comparison (.operand ht)), hdepth⟩
  have hcompiled : Compiled.ofInput (.tokens ts) = .ok _ :=
    Compiled.ofSource_eq_ok_iff.2 ⟨ss, t, hss, htree, rfl⟩
  obtain ⟨hreport, hkept⟩ := p.parse_eq (.tokens ts)
  rw [hcompiled] at hreport hkept
  exact ⟨hreport, by rw [hkept]; rfl⟩

end

-- ============================================================ main result

/-- What a parser makes of tokens depends on what is written, and on nothing
else. Tokens that agree in it either all fail with one cause, and so with one
code and message, or are parsed to the same instructions in all but their
places, and the same variables. And `IS NOT NULL`, `NOT LIKE` and `NOT IN` are
one instruction each: behind an operand, and another one where there is one
between two, whatever layout is between their words. -/
theorem parse_written (p q : Parser) :
    (∀ {ts us : List Token}, written ts = written us →
      let x := p.parse (.tokens ts)
      let y := q.parse (.tokens us)
      (∃ f g, x.1 = some f ∧ y.1 = some g ∧ f.cause = g.cause)
        ∨ (x.1 = none ∧ y.1 = none
          ∧ x.2.code.map Instruction.step = y.2.code.map Instruction.step
          ∧ x.2.names = y.2.names))
    ∧ (∀ {ts gap gap' : List Token} {i n u : Token} {l : Tree},
      Writes (.chain .additive) ts l → i.IsWord "IS" → n.IsWord "NOT" → u.IsWord "NULL" →
      (∀ t ∈ gap, t.isLayout = true) → (∀ t ∈ gap', t.isLayout = true) →
      let tokens := ts ++ i :: (gap ++ n :: (gap' ++ [u]))
      let x := p.parse (.tokens tokens)
      Writes (.chain .additive) tokens (.monadic .isNotNull l i.text i.place)
        ∧ (l.depth ≤ maxDepth →
          x.1 = none ∧ x.2.code = l.code ++ [⟨.monadic .isNotNull i.text, i.place⟩]))
    ∧ ∀ {ts us gap : List Token} {n m : Token} {l r : Tree}, ∀ e ∈ negated,
      Writes (.chain .additive) ts l → Writes (.chain .multiplicative) us r →
      n.IsWord "NOT" → m.IsWord e.1 → (∀ t ∈ gap, t.isLayout = true) →
      let tokens := ts ++ n :: (gap ++ m :: us)
      let x := p.parse (.tokens tokens)
      Writes (.chain .additive) tokens (.dyadic e.2 l r n.text n.place)
        ∧ (l.depth ≤ maxDepth → r.depth ≤ maxDepth →
          x.1 = none ∧ x.2.code = l.code ++ r.code ++ [⟨.dyadic e.2 n.text, n.place⟩]) := by
  refine ⟨?_, ?_, ?_⟩
  · intro ts us h x y
    obtain ⟨hx, hx'⟩ := p.parse_eq (.tokens ts)
    obtain ⟨hy, hy'⟩ := q.parse_eq (.tokens us)
    have hkept := Compiled.kept_cases (concur_ofTokens_written h)
    rw [show x.1 = _ from hx, show y.1 = _ from hy]
    show _ ∨ (_ ∧ _ ∧ x.2.toCompiled.code.map _ = y.2.toCompiled.code.map _
      ∧ x.2.toCompiled.names = y.2.toCompiled.names)
    rw [hx', hy']
    exact hkept
  · intro ts gap gap' i n u l hts hi hn hu hgap hgap' tokens x
    have htokens := writes_isNotNull hts hi hn hu hgap hgap'
    refine ⟨htokens, fun hdepth => parse_of_writes htokens ?_ p⟩
    rw [Tree.depth, Monadic.nests, Nat.zero_add]
    exact hdepth
  · intro ts us gap n m l r e he hts hus hn hm hgap tokens x
    have htokens := writes_negated he hts hus hn hm hgap
    refine ⟨htokens, fun hl hr => parse_of_writes htokens ?_ p⟩
    have hnests : e.2.nests = 0 := by
      rcases List.mem_pair.1 he with rfl | rfl
      · rfl
      · rfl
    rw [Tree.depth, hnests, Nat.zero_add]
    exact Nat.max_le.2 ⟨hl, hr⟩

/-- `a IS NOT NULL` over two lines and with a comment, and in one line somewhere
else; and `a NOT IN b` without a blank, as no text can be. -/
theorem parse_written_isNotNull :
    let a : Token := ⟨.word, "a", ⟨1, 1⟩⟩
    let b : Token := ⟨.word, "b", ⟨1, 8⟩⟩
    let i : Token := ⟨.word, "is", ⟨1, 3⟩⟩
    let n : Token := ⟨.word, "Not", ⟨2, 1⟩⟩
    let u : Token := ⟨.keyword, "NULL", ⟨2, 9⟩⟩
    let m : Token := ⟨.word, "In", ⟨1, 6⟩⟩
    let blank : Token := ⟨.whitespace, " ", ⟨1, 5⟩⟩
    let line : Token := ⟨.eol, "\n", ⟨1, 6⟩⟩
    let comment : Token := ⟨.comment, "/* */", ⟨2, 4⟩⟩
    let wide := [a] ++ i :: ([blank, line] ++ n :: ([comment] ++ [u]))
    let narrow : List Token := [⟨.word, "a", ⟨9, 1⟩⟩, ⟨.word, "is", ⟨9, 3⟩⟩,
      ⟨.word, "Not", ⟨9, 6⟩⟩, ⟨.keyword, "NULL", ⟨9, 10⟩⟩, ⟨.eof, "", ⟨9, 14⟩⟩]
    (Parser.new.parse (.tokens wide)).2.code
        = [⟨.variable "a", ⟨1, 1⟩⟩, ⟨.monadic .isNotNull "is", ⟨1, 3⟩⟩]
      ∧ (Parser.new.parse (.tokens narrow)).2.code.map Instruction.step
        = [.variable "a", .monadic .isNotNull "is"]
      ∧ (Parser.new.parse (.tokens ([a] ++ n :: ([] ++ m :: [b])))).2.code
        = [⟨.variable "a", ⟨1, 1⟩⟩, ⟨.variable "b", ⟨1, 8⟩⟩, ⟨.dyadic .notIn "Not", ⟨2, 1⟩⟩] := by
  intro a b i n u m blank line comment wide narrow
  have hname (name : String) (place : Place) (k : Level)
      (h : ofWord name = (.variable, .string name)) :
      Writes (.chain k) [⟨.word, name, place⟩] (.variable name place) := by
    refine ⟨[⟨.variable, .string name, place⟩], ?_, Derives.chain (.variable rfl) k⟩
    rw [symbols_word, h]
  have ha := hname "a" ⟨1, 1⟩ .additive rfl
  have hb := hname "b" ⟨1, 8⟩ .multiplicative rfl
  have hatom (name : String) (place : Place) : (Tree.variable name place).depth ≤ maxDepth := by
    rw [Tree.depth]
    decide
  obtain ⟨hsame, hnull, hnegated⟩ := parse_written .new .new
  have hi : i.IsWord "IS" := ⟨.inl rfl, by decide⟩
  have hn : n.IsWord "NOT" := ⟨.inl rfl, by decide⟩
  have hu : u.IsWord "NULL" := ⟨.inr rfl, by decide⟩
  have hm : m.IsWord "IN" := ⟨.inl rfl, by decide⟩
  have hlines : ∀ t ∈ [blank, line], t.isLayout = true := by decide
  have hcomment : ∀ t ∈ [comment], t.isLayout = true := by decide
  have hnothing : ∀ t ∈ ([] : List Token), t.isLayout = true := by decide
  have hx := (hnull ha hi hn hu hlines hcomment).2 (hatom ..)
  have hin := (hnegated ("IN", .notIn) (by decide) ha hb hn hm hnothing).2 (hatom ..) (hatom ..)
  have hsame := hsame (show written wide = written narrow by decide)
  refine ⟨?_, ?_, ?_⟩
  · rw [hx.2, Tree.code]
    rfl
  · rcases hsame with ⟨f, g, hf, -⟩ | ⟨-, -, hsteps, -⟩
    · have hfailed := hx.1.symm.trans hf
      cases hfailed
    · rw [← hsteps, hx.2, Tree.code]
      rfl
  · rw [hin.2, Tree.code, Tree.code]
    rfl

end Expr

end Formula
