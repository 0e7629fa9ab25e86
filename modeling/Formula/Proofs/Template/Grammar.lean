/-
The tags of a template as a grammar, beside the machine that reads them. Main
statement: the machine reads whatever the grammar writes, and finds the pieces
that are written (`pieces_of_written`).

The grammar lists the tags, one constructor for each, and says nothing of
states. What it is for tokens to be the beginning of something written
(`Viable`), and why a token does not go on from such a beginning (`Misfit`),
is said in terms of the grammar alone.
-/
import Formula.Proofs.Template.Machine

namespace Formula

namespace Template

-- =========================================================== the grammar

/-- Whether a token is a certain symbol. -/
def IsSign (text : String) (t : Token) : Prop := t.kind = .symbol ∧ t.text = text

/-- Whether a word may stand in front of the name of a section. -/
def isQualifier (w : Token) : Bool := sameName w.text "if" || sameName w.text "unless"

/-- The bracket that opens a tag, raw or not. -/
def openBracket (raw : Bool) : String := if raw then openingRaw else opening

/-- The bracket that closes a tag, raw or not. -/
def closeBracket (raw : Bool) : String := if raw then closingRaw else closing

/-- What may stand between the brackets of a tag, with the kind of the tag and
its name or comment. -/
inductive Body : (raw : Bool) → List Token → PieceKind → Option String → Prop
  | rawVariable {w : Token} (word : w.kind = .word) : Body true [w] .variable (some w.text)
  | escapedVariable {w : Token} (word : w.kind = .word) :
      Body false [w] .escapedVariable (some w.text)
  | sectionStart {m w : Token} (sign : IsSign "#" m) (word : w.kind = .word)
      (plain : isQualifier w = false) : Body false [m, w] .sectionStart (some w.text)
  | ifSection {m q w : Token} (sign : IsSign "#" m) (first : q.kind = .word)
      (qualifier : sameName q.text "if" = true) (word : w.kind = .word) :
      Body false [m, q, w] .sectionStart (some w.text)
  | unlessSection {m q w : Token} (sign : IsSign "#" m) (first : q.kind = .word)
      (qualifier : sameName q.text "unless" = true) (word : w.kind = .word) :
      Body false [m, q, w] .invertedStart (some w.text)
  | inverted {m w : Token} (sign : IsSign "^" m) (word : w.kind = .word) :
      Body false [m, w] .invertedStart (some w.text)
  | ended {m : Token} (sign : IsSign "/" m) : Body false [m] .sectionEnd none
  | namedEnd {m w : Token} (sign : IsSign "/" m) (word : w.kind = .word) :
      Body false [m, w] .sectionEnd (if isQualifier w then none else some w.text)
  | comment {m : Token} {ts : List Token} (sign : IsSign "!" m)
      (inside : ∀ t ∈ ts, isClosing t = false) :
      Body false (m :: ts) .comment (some (String.intercalate " " (ts.map Token.text)))

/-- The tokens of one piece: text, or a tag in its brackets. A tag has the
place of its opening bracket. -/
inductive Spells : List Token → Piece → Prop
  | text {t : Token} (kind : t.kind = .special) : Spells [t] ⟨.value, some t.text, t.place⟩
  | tag {raw : Bool} {o c : Token} {body : List Token} {kind : PieceKind} {name : Option String}
      (opens : IsSign (openBracket raw) o) (inside : Body raw body kind name)
      (closes : IsSign (closeBracket raw) c) : Spells (o :: body ++ [c]) ⟨kind, name, o.place⟩

/-- The tokens of pieces, in order. -/
inductive Written : List Token → List Piece → Prop
  | nil : Written [] []
  | cons {us ts : List Token} {p : Piece} {ps : List Piece} (first : Spells us p)
      (rest : Written ts ps) : Written (us ++ ts) (p :: ps)

/-- Whether tokens can be completed to something written. -/
def Viable (front : List Token) : Prop := ∃ more ps, Written (front ++ more) ps

/-- Whether tokens end inside a tag, which `o` opened. -/
def OpenAt (front : List Token) (raw : Bool) (o : Token) : Prop :=
  ∃ done body, front = done ++ o :: body ∧ (∃ ps, Written done ps)
    ∧ IsSign (openBracket raw) o ∧ ∀ t ∈ body, isClosing t = false

/-- Why a token does not go on from the tokens in front of it. -/
inductive Misfit (front : List Token) (t : Token) : Cause → Prop
  | outside (outside : ∃ ps, Written front ps) : Misfit front t (.unexpectedSymbol t.text)
  | mismatched {raw : Bool} {o : Token} (inside : OpenAt front raw o) (closes : isClosing t = true)
      (other : t.text ≠ closeBracket raw) : Misfit front t (.mismatchedBrackets o.text t.text)
  /-- The bracket is the right one, but a name has to come first. -/
  | unnamed {raw : Bool} {o : Token} (inside : OpenAt front raw o)
      (closes : IsSign (closeBracket raw) t)
      (missing : ∀ w : Token, w.kind = .word → Viable (front ++ [w])) : Misfit front t .missingName
  | inside {raw : Bool} {o : Token} (inside : OpenAt front raw o) (stays : isClosing t = false) :
      Misfit front t (.unexpectedSymbol t.text)

-- =============================================================== signs

theorem isClosing_of_word {w : Token} (h : w.kind = .word) : isClosing w = false := by
  simp [isClosing, h]

/-- A mark is no bracket. -/
theorem isClosing_of_mark {text : String} {m : Token} {mark : PieceKind × Wanted}
    (hsign : IsSign text m) (hmark : marked? text = some mark) : isClosing m = false := by
  have hclosing : text ≠ closing := by rintro rfl; cases hmark
  have hraw : text ≠ closingRaw := by rintro rfl; cases hmark
  simp [isClosing, hsign.2, hclosing, hraw]

theorem isOpening_iff {o : Token} : isOpening o = true ↔ ∃ raw, IsSign (openBracket raw) o := by
  simp [isOpening, IsSign, openBracket, and_or_left]

theorem isClosing_iff {c : Token} : isClosing c = true ↔ ∃ raw, IsSign (closeBracket raw) c := by
  simp [isClosing, IsSign, closeBracket, and_or_left]

theorem isSign_of_closing {c : Token} {text : String} (hc : isClosing c = true)
    (htext : c.text = text) : IsSign text c := by
  obtain ⟨raw, hkind, -⟩ := isClosing_iff.1 hc
  exact ⟨hkind, htext⟩

/-- The tag that a bracket begins. -/
def begun (raw : Bool) (place : Place) : OpenTag :=
  ⟨raw, if raw then .variable else .escapedVariable, none, [], place⟩

theorem start_of_opens {raw : Bool} {o : Token} (h : IsSign (openBracket raw) o) :
    OpenTag.start o = begun raw o.place := by
  unfold OpenTag.start begun
  rw [h.2]
  cases raw <;> rfl

/-- Outside, an opening bracket begins a tag. -/
theorem step_of_opens {raw : Bool} {o : Token} (h : IsSign (openBracket raw) o) :
    Mode.outside.step o = .ok (⟨.start, some (begun raw o.place)⟩, none) := by
  have hkind : o.kind ≠ .special := by rw [h.1]; decide
  rw [step_opening rfl hkind (isOpening_iff.2 ⟨raw, h⟩), start_of_opens h]

theorem opening_eq (tag : OpenTag) : tag.opening = openBracket tag.raw := rfl

theorem closing_eq (tag : OpenTag) : tag.closing = closeBracket tag.raw := rfl

-- ========================================================== single reads

section

variable {tag : OpenTag} {m w c : Token} {kind : PieceKind} {wanted : Wanted}

/-- A mark says which tag this is and what comes next. -/
theorem read_mark {text : String} (hraw : tag.raw = false) (hsign : IsSign text m)
    (hmark : marked? text = some (kind, wanted)) :
    tag.read .start m = .ok ({ tag with kind := kind }, wanted) := by
  simp only [OpenTag.read, hsign.1, hsign.2, hraw, hmark]

theorem read_start (hword : w.kind = .word) :
    tag.read .start w = .ok ({ tag with name := some w.text }, .close) := by
  simp only [OpenTag.read, hword]

/-- A word is not both of the words in front of names. -/
theorem sameName_if_of_unless (hname : sameName w.text "unless" = true) :
    sameName w.text "if" = false := by
  rw [sameName_comm, sameName_congr hname]
  decide

theorem read_if (hword : w.kind = .word) (hname : sameName w.text "if" = true) :
    tag.read .qualifier w = .ok (tag, .name) := by
  simp only [OpenTag.read, hword, hname, if_true]

theorem read_unless (hword : w.kind = .word) (hname : sameName w.text "unless" = true) :
    tag.read .qualifier w = .ok ({ tag with kind := .invertedStart }, .name) := by
  simp [OpenTag.read, hword, sameName_if_of_unless hname, hname]

theorem read_plain (hword : w.kind = .word) (hplain : isQualifier w = false) :
    tag.read .qualifier w = .ok ({ tag with name := some w.text }, .close) := by
  rw [isQualifier, Bool.or_eq_false_iff] at hplain
  simp [OpenTag.read, hword, hplain.1, hplain.2]

theorem read_name (hkind : tag.kind ≠ .sectionEnd) (hword : w.kind = .word) :
    tag.read .name w = .ok ({ tag with name := some w.text }, .close) := by
  simp [OpenTag.read, hword, hkind]

/-- At a section end, the words in front of names are no names. -/
theorem read_end (hkind : tag.kind = .sectionEnd) (hname : tag.name = none)
    (hword : w.kind = .word) :
    tag.read .name w
      = .ok ({ tag with name := if isQualifier w then none else some w.text }, .close) := by
  obtain ⟨raw, _, _, words, place⟩ := tag
  cases hkind
  cases hname
  simp only [OpenTag.read, hword, true_and, isQualifier, Bool.or_eq_true]
  split <;> rfl

theorem finish_named (hclosing : c.text = tag.closing) (hwanted : wanted ≠ .comment)
    (hname : tag.name ≠ none ∨ tag.kind = .sectionEnd) :
    tag.finish wanted c = .ok ⟨tag.kind, tag.name, tag.place⟩ := by
  unfold OpenTag.finish
  rw [if_neg (not_not_intro hclosing), if_neg hwanted, if_neg]
  rintro ⟨hnone, hkind⟩
  exact hname.elim (fun h => h hnone) hkind

/-- Only the right bracket closes a tag. -/
theorem text_of_finish {piece : Piece} (h : tag.finish wanted c = .ok piece) :
    c.text = tag.closing := by
  unfold OpenTag.finish at h
  split at h
  · cases h
  · next htext => exact Decidable.not_not.1 htext

theorem finish_mismatched (hclosing : c.text ≠ tag.closing) :
    tag.finish wanted c
      = .error (.atPlace (.mismatchedBrackets tag.opening c.text) c.place) :=
  if_pos hclosing

theorem finish_comment (hclosing : c.text = tag.closing) :
    tag.finish .comment c
      = .ok ⟨.comment, some (String.intercalate " " tag.words.reverse), tag.place⟩ := by
  unfold OpenTag.finish
  rw [if_neg (not_not_intro hclosing), if_pos rfl]

end

-- ================================================= what is written is read

section

variable {raw : Bool} {c : Token} {ts body : List Token} {kind : PieceKind} {name : Option String}
  (last place : Place)

theorem piecesFrom_mark {m : Token} {text : String} {kind : PieceKind} {wanted : Wanted}
    (hsign : IsSign text m) (hmark : marked? text = some (kind, wanted)) :
    piecesFrom last ⟨.start, some (begun false place)⟩ (m :: ts)
      = piecesFrom last ⟨wanted, some ⟨false, kind, none, [], place⟩⟩ ts := by
  have hstart : Wanted.start ≠ .text := by decide
  have hread : (begun false place).read .start m = .ok (⟨false, kind, none, [], place⟩, wanted) :=
    read_mark rfl hsign hmark
  exact piecesFrom_read hread hstart (isClosing_of_mark hsign hmark)

theorem piecesFrom_word {w : Token} {tag tag' : OpenTag} {wanted wanted' : Wanted}
    (hread : tag.read wanted w = .ok (tag', wanted')) (hwanted : wanted ≠ .text)
    (hword : w.kind = .word) :
    piecesFrom last ⟨wanted, some tag⟩ (w :: ts) = piecesFrom last ⟨wanted', some tag'⟩ ts :=
  piecesFrom_read hread hwanted (isClosing_of_word hword)

/-- The words of a comment are collected. -/
theorem piecesFrom_comment (tag : OpenTag) (hbody : ∀ t ∈ body, isClosing t = false) :
    piecesFrom last ⟨.comment, some tag⟩ (body ++ ts)
      = piecesFrom last
          ⟨.comment, some { tag with words := (body.map Token.text).reverse ++ tag.words }⟩ ts := by
  induction body generalizing tag with
  | nil => rfl
  | cons t body ih =>
      have hread : tag.read .comment t
          = .ok ({ tag with words := t.text :: tag.words }, .comment) := rfl
      rw [List.cons_append, piecesFrom_read hread nofun (hbody t List.mem_cons_self),
        ih _ fun u hu => hbody u (List.mem_cons_of_mem t hu)]
      simp

/-- The machine reads whatever may stand in a tag, and its closing bracket. -/
theorem piecesFrom_body (hbody : Body raw body kind name) (hc : IsSign (closeBracket raw) c) :
    piecesFrom last ⟨.start, some (begun raw place)⟩ (body ++ c :: ts)
      = (piecesFrom last .outside ts).map (⟨kind, name, place⟩ :: ·) := by
  have hclosing : isClosing c = true := isClosing_iff.2 ⟨raw, hc⟩
  have hsection : PieceKind.sectionStart ≠ .sectionEnd := nofun
  have hinverted : PieceKind.invertedStart ≠ .sectionEnd := nofun
  cases hbody with
  | rawVariable hword =>
      rw [List.cons_append, piecesFrom_word last (read_start hword) nofun hword]
      exact piecesFrom_finish (finish_named hc.2 nofun (.inl nofun)) nofun hclosing
  | escapedVariable hword =>
      rw [List.cons_append, piecesFrom_word last (read_start hword) nofun hword]
      exact piecesFrom_finish (finish_named hc.2 nofun (.inl nofun)) nofun hclosing
  | sectionStart hm hword hplain =>
      rw [List.cons_append, piecesFrom_mark last place hm rfl, List.cons_append,
        piecesFrom_word last (read_plain hword hplain) nofun hword]
      exact piecesFrom_finish (finish_named hc.2 nofun (.inl nofun)) nofun hclosing
  | ifSection hm hfirst hqualifier hword =>
      rw [List.cons_append, piecesFrom_mark last place hm rfl, List.cons_append,
        piecesFrom_word last (read_if hfirst hqualifier) nofun hfirst, List.cons_append,
        piecesFrom_word last (read_name hsection hword) nofun hword]
      exact piecesFrom_finish (finish_named hc.2 nofun (.inl nofun)) nofun hclosing
  | unlessSection hm hfirst hqualifier hword =>
      rw [List.cons_append, piecesFrom_mark last place hm rfl, List.cons_append,
        piecesFrom_word last (read_unless hfirst hqualifier) nofun hfirst, List.cons_append,
        piecesFrom_word last (read_name hinverted hword) nofun hword]
      exact piecesFrom_finish (finish_named hc.2 nofun (.inl nofun)) nofun hclosing
  | inverted hm hword =>
      rw [List.cons_append, piecesFrom_mark last place hm rfl, List.cons_append,
        piecesFrom_word last (read_name hinverted hword) nofun hword]
      exact piecesFrom_finish (finish_named hc.2 nofun (.inl nofun)) nofun hclosing
  | ended hm =>
      rw [List.cons_append, piecesFrom_mark last place hm rfl]
      exact piecesFrom_finish (finish_named hc.2 nofun (.inr rfl)) nofun hclosing
  | namedEnd hm hword =>
      rw [List.cons_append, piecesFrom_mark last place hm rfl, List.cons_append,
        piecesFrom_word last (read_end rfl rfl hword) nofun hword]
      exact piecesFrom_finish (finish_named hc.2 nofun (.inr rfl)) nofun hclosing
  | comment hm hinside =>
      rw [List.cons_append, piecesFrom_mark last place hm rfl, piecesFrom_comment last _ hinside,
        piecesFrom_finish (finish_comment hc.2) nofun hclosing, List.append_nil,
        List.reverse_reverse]

theorem piecesFrom_spells {us : List Token} {p : Piece} (h : Spells us p) :
    piecesFrom last .outside (us ++ ts) = (piecesFrom last .outside ts).map (p :: ·) := by
  cases h with
  | text hkind => rw [List.cons_append, piecesFrom, step_text rfl hkind]; rfl
  | @tag raw o c body kind name hopens hinside hcloses =>
      rw [List.append_assoc, List.cons_append, piecesFrom, step_of_opens hopens]
      exact piecesFrom_body last o.place hinside hcloses

end

/-- The machine finds the pieces of whatever is written. -/
theorem pieces_of_written {ts : List Token} {ps : List Piece} (h : Written ts ps) :
    pieces ts = .ok ps := by
  unfold pieces
  generalize (ts.getLast?.map Token.place).getD .origin = last
  induction h with
  | nil => rfl
  | cons hfirst _ ih => rw [piecesFrom_spells last hfirst, ih]; rfl

end Template

end Formula
