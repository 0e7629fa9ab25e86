/-
Templates printed text by text and tag by tag. Main statements: if no text can
be taken for more or less than it is (`Printable`), the lexer finds the
tokens of each in turn (`tokens_print`), and the machine makes one piece of
each (`pieces_print`).

What is excluded is what could not be read back. Two texts in a row are one;
two opening braces begin a tag, also when the first of them ends a text; and
two closing braces with a third behind them are another bracket.
-/
import Formula.Proofs.Template.Machine
import Formula.Proofs.Template.Tags

namespace Formula

namespace Template

open Lexer (isTagLetter)

-- ============================================================= printing

/-- What says which tag this is. -/
inductive Mark where
  | raw
  | escaped
  | opened
  | inverted
  | ended
  deriving DecidableEq

/-- How many braces are on either side of a tag. -/
def Mark.braces : Mark → Nat
  | .raw => 3
  | .escaped | .opened | .inverted | .ended => 2

/-- What stands in front of the name. -/
def Mark.sign : Mark → List Char
  | .raw | .escaped => []
  | .opened => ['#', 'i', 'f', ' ']
  | .inverted => ['^']
  | .ended => ['/']

/-- The kind of piece that a tag is. -/
def Mark.kind : Mark → PieceKind
  | .raw => .variable
  | .escaped => .escapedVariable
  | .opened => .sectionStart
  | .inverted => .invertedStart
  | .ended => .sectionEnd

/-- A text or a tag. -/
inductive Item where
  | text (value : List Char)
  | tag (mark : Mark) (name : List Char)

/-- The brackets of a tag. -/
def Mark.opening (mark : Mark) : List Char := List.replicate mark.braces '\x7b'

def Mark.closing (mark : Mark) : List Char := List.replicate mark.braces '\x7d'

/-- How a text or a tag is printed. -/
def Item.print : Item → List Char
  | .text value => value
  | .tag mark name => mark.opening ++ (mark.sign ++ (name ++ mark.closing))

/-- Several texts and tags, one after the other. -/
def print (items : List Item) : List Char := items.flatMap Item.print

/-- Texts and names as they may be printed. -/
def Item.Valid : Item → Prop
  | .text value => value ≠ [] ∧ ¬['\x7b', '\x7b'] <:+: value
  | .tag _ name => name ≠ [] ∧ ∀ c ∈ name, isTagLetter c = true

/-- What may stand next to each other. -/
def Item.Fits : Item → Item → Prop
  | .text _, .text _ => False
  | .text value, .tag _ _ => value.getLast? ≠ some '\x7b'
  | .tag mark _, .text value => mark ≠ .raw → value.head? ≠ some '\x7d'
  | .tag _ _, .tag _ _ => True

/-- What it is for texts and tags to be read back. -/
structure Printable (items : List Item) : Prop where
  valid : ∀ i ∈ items, i.Valid
  fits : items.IsChain Item.Fits

instance : DecidablePred Item.Valid
  | .text value => inferInstanceAs (Decidable (value ≠ [] ∧ ¬['\x7b', '\x7b'] <:+: value))
  | .tag _ name => decidable_of_iff (name ≠ [] ∧ name.all isTagLetter = true)
    (and_congr_right fun _ => List.all_eq_true)

instance : DecidableRel Item.Fits
  | .text _, .text _ => inferInstanceAs (Decidable False)
  | .text value, .tag _ _ => inferInstanceAs (Decidable (value.getLast? ≠ some '\x7b'))
  | .tag mark _, .text value =>
    inferInstanceAs (Decidable (mark ≠ .raw → value.head? ≠ some '\x7d'))
  | .tag _ _, .tag _ _ => inferInstanceAs (Decidable True)

instance (items : List Item) : Decidable (Printable items) :=
  decidable_of_iff ((∀ i ∈ items, i.Valid) ∧ items.IsChain Item.Fits)
    ⟨fun h => ⟨h.1, h.2⟩, fun h => ⟨h.valid, h.fits⟩⟩

/-- Texts and tags are printable one by one. -/
theorem Printable.cons {i : Item} {items : List Item} (h : Printable (i :: items)) :
    i.Valid ∧ (∀ j, items.head? = some j → i.Fits j) ∧ Printable items := by
  have hvalid := List.forall_mem_cons.1 h.valid
  cases items with
  | nil => exact ⟨hvalid.1, nofun, hvalid.2, .nil⟩
  | cons j items =>
      obtain ⟨hfits, hmore⟩ := List.isChain_cons_cons.1 h.fits
      refine ⟨hvalid.1, ?_, hvalid.2, hmore⟩
      intro k hk
      cases hk
      exact hfits

-- ============================================================== tokens

/-- The token of some characters that stand behind `front`. -/
def tokenAt (front : List Char) (kind : Token.Kind) (cs : List Char) : Token :=
  ⟨kind, String.ofList cs, .after front⟩

/-- The tokens of what stands in front of a name. -/
def Mark.tokens (front : List Char) : Mark → List Token
  | .raw | .escaped => []
  | .opened => [tokenAt front .symbol ['#'], tokenAt (front ++ ['#']) .word ['i', 'f']]
  | .inverted => [tokenAt front .symbol ['^']]
  | .ended => [tokenAt front .symbol ['/']]

/-- The tokens of a text or a tag that stands behind `front`. -/
def Item.tokens (front : List Char) : Item → List Token
  | .text value => [tokenAt front .special value]
  | .tag mark name =>
    tokenAt front .symbol mark.opening :: (mark.tokens (front ++ mark.opening) ++
      [tokenAt (front ++ mark.opening ++ mark.sign) .word name,
        tokenAt (front ++ mark.opening ++ mark.sign ++ name) .symbol mark.closing])

/-- The tokens of texts and tags that stand behind `front`. -/
def printedTokens (front : List Char) : List Item → List Token
  | [] => []
  | i :: items => i.tokens front ++ printedTokens (front ++ i.print) items

section

variable {cs rest : List Char} {kind : Token.Kind} (front : List Char)

theorem tokensFrom_of_next {outside : Bool}
    (hbefore : textBefore outside (.behind front (cs ++ rest)) = ([], .behind front (cs ++ rest)))
    (hnext : tagLexer.next (.behind front (cs ++ rest))
      = (.ok (some (tokenAt front kind cs)), .behind (front ++ cs) rest))
    (hkind : kind ≠ .eof) :
    tokensFrom outside (.behind front (cs ++ rest))
      = (tokensFrom (isClosing (tokenAt front kind cs)) (.behind (front ++ cs) rest)).map
          (tokenAt front kind cs :: ·) := by
  rw [tokensFrom_eq, hbefore]
  dsimp only
  rw [hnext]
  exact if_neg hkind

theorem tokensFrom_word (hcs : cs ≠ []) (hletters : ∀ c ∈ cs, isTagLetter c = true)
    (hrest : ∀ c, rest.head? = some c → isTagLetter c = false) :
    tokensFrom false (.behind front (cs ++ rest))
      = (tokensFrom false (.behind (front ++ cs) rest)).map (tokenAt front .word cs :: ·) :=
  tokensFrom_of_next front rfl (next_word hcs hletters hrest front) nofun

theorem tokensFrom_mark {c : Char} (hc : c = '#' ∨ c = '^' ∨ c = '/') (rest : List Char) :
    tokensFrom false (.behind front (c :: rest))
      = (tokensFrom false (.behind (front ++ [c]) rest)).map (tokenAt front .symbol [c] :: ·) := by
  have hclosing : isClosing (tokenAt front .symbol [c]) = false := by
    rcases hc with rfl | rfl | rfl <;> rfl
  have h := @tokensFrom_of_next [c] rest .symbol front false rfl (next_mark hc front rest) nofun
  rw [hclosing] at h
  exact h

theorem tokensFrom_blank (hrest : ∀ b, rest.head? = some b → ¬b ≤ ' ') :
    tokensFrom false (.behind front (' ' :: rest))
      = tokensFrom false (.behind (front ++ [' ']) rest) := by
  have hblank : ∀ b ∈ [' '], b ≤ ' ' := by simp
  have hbefore (cur : Cursor) : textBefore false cur = ([], cur) := rfl
  rw [tokensFrom_eq, tokensFrom_eq, hbefore, hbefore]
  dsimp only
  rw [← next_behind_blanks hblank hrest]
  rfl

theorem map_append_map (xs ys : List Token) (result : Except Fault (List Token)) :
    (result.map (ys ++ ·)).map (xs ++ ·) = result.map (xs ++ ys ++ ·) := by
  cases result with
  | error fault => rfl
  | ok ts => exact congrArg Except.ok (List.append_assoc xs ys ts).symm

/-- The mark and the word in front of the name of a section. -/
theorem tokensFrom_conditional (hrest : ∀ b, rest.head? = some b → ¬b ≤ ' ') :
    tokensFrom false (.behind front ('#' :: (['i', 'f'] ++ ' ' :: rest)))
      = (tokensFrom false (.behind (front ++ ['#', 'i', 'f', ' ']) rest)).map
          (Mark.tokens front .opened ++ ·) := by
  have hif : ∀ d ∈ ['i', 'f'], isTagLetter d = true := by simp [isTagLetter]
  have hbehind : ∀ d, (' ' :: rest).head? = some d → isTagLetter d = false := by
    intro d hd
    cases hd
    decide
  have hfront : front ++ ['#'] ++ ['i', 'f'] ++ [' '] = front ++ ['#', 'i', 'f', ' '] := by simp
  rw [tokensFrom_mark front (.inl rfl), tokensFrom_word _ (List.cons_ne_nil _ _) hif hbehind,
    tokensFrom_blank _ hrest, hfront]
  exact map_append_map [_] [_] _

theorem tokensFrom_sign (mark : Mark) {name : List Char} (hname : name ≠ [])
    (hletters : ∀ c ∈ name, isTagLetter c = true) (rest : List Char) :
    tokensFrom false (.behind front (mark.sign ++ (name ++ rest)))
      = (tokensFrom false (.behind (front ++ mark.sign) (name ++ rest))).map
          (mark.tokens front ++ ·) := by
  have hplain : tokensFrom false (.behind front ([] ++ (name ++ rest)))
      = (tokensFrom false (.behind (front ++ []) (name ++ rest))).map ([] ++ ·) := by
    rw [List.append_nil, List.nil_append]
    cases tokensFrom false (.behind front (name ++ rest)) <;> rfl
  have hblank : ∀ b, (name ++ rest).head? = some b → ¬b ≤ ' ' := by
    obtain ⟨c, r, rfl⟩ := List.exists_cons_of_ne_nil hname
    intro b hb hle
    cases hb
    have hletter := hletters c (List.mem_cons_self ..)
    rw [Lexer.isTagLetter_of_blank hle] at hletter
    cases hletter
  cases mark with
  | raw => exact hplain
  | escaped => exact hplain
  | opened => exact tokensFrom_conditional front hblank
  | inverted => exact tokensFrom_mark front (.inr (.inl rfl)) (name ++ rest)
  | ended => exact tokensFrom_mark front (.inr (.inr rfl)) (name ++ rest)

theorem tokensFrom_opening (mark : Mark) (hrest : rest.head? ≠ some '\x7b') :
    tokensFrom true (.behind front (mark.opening ++ rest))
      = (tokensFrom false (.behind (front ++ mark.opening) rest)).map
          (tokenAt front .symbol mark.opening :: ·) := by
  have hbraces : mark.braces = 2 ∧ rest.head? ≠ some '\x7b' ∨ mark.braces = 3 := by
    cases mark with
    | raw => exact .inr rfl
    | _ => exact .inl ⟨rfl, hrest⟩
  have hopens : Opens (mark.opening ++ rest) := by
    cases mark with
    | raw => exact ⟨_, rfl⟩
    | _ => exact ⟨rest, rfl⟩
  have hbefore := textBefore_none (proseText_of_opens hopens) front
  have hclosing : isClosing (tokenAt front .symbol mark.opening) = false := by
    cases mark <;> rfl
  have h := tokensFrom_of_next front hbefore (next_braces (.inl rfl) hbraces front) nofun
  rw [hclosing] at h
  exact h

/-- A closing bracket, unless it goes on. -/
theorem tokensFrom_closing (mark : Mark) (hrest : mark ≠ .raw → rest.head? ≠ some '\x7d') :
    tokensFrom false (.behind front (mark.closing ++ rest))
      = (tokensFrom true (.behind (front ++ mark.closing) rest)).map
          (tokenAt front .symbol mark.closing :: ·) := by
  have hbraces : mark.braces = 2 ∧ rest.head? ≠ some '\x7d' ∨ mark.braces = 3 := by
    cases mark with
    | raw => exact .inr rfl
    | _ => exact .inl ⟨rfl, hrest nofun⟩
  have hclosing : isClosing (tokenAt front .symbol mark.closing) = true := by
    cases mark <;> rfl
  have h := @tokensFrom_of_next mark.closing rest .symbol front false rfl
    (next_braces (.inr rfl) hbraces front) nofun
  rw [hclosing] at h
  exact h

theorem tokensFrom_tag {mark : Mark} {name : List Char} (hname : (Item.tag mark name).Valid)
    (hrest : mark ≠ .raw → rest.head? ≠ some '\x7d') :
    tokensFrom true (.behind front ((Item.tag mark name).print ++ rest))
      = (tokensFrom true (.behind (front ++ (Item.tag mark name).print) rest)).map
          ((Item.tag mark name).tokens front ++ ·) := by
  obtain ⟨hne, hletters⟩ := hname
  obtain ⟨c, r, hname⟩ := List.exists_cons_of_ne_nil hne
  have hbrace : c ≠ '\x7b' := by
    rintro rfl
    exact absurd (hletters _ (hname ▸ List.mem_cons_self ..)) (by decide)
  have hinside : (mark.sign ++ (name ++ (mark.closing ++ rest))).head? ≠ some '\x7b' := by
    rw [hname]
    cases mark <;> simp [Mark.sign, hbrace]
  have hbehind : ∀ c, (mark.closing ++ rest).head? = some c → isTagLetter c = false := by
    intro c hc
    have hc : some '\x7d' = some c := by cases mark <;> exact hc
    cases hc
    decide
  have hopening := tokensFrom_opening front mark hinside
  have hsign := tokensFrom_sign (front ++ mark.opening) mark hne hletters (mark.closing ++ rest)
  have hword := tokensFrom_word (front ++ mark.opening ++ mark.sign) hne hletters hbehind
  have hclosing := tokensFrom_closing (front ++ mark.opening ++ mark.sign ++ name) mark hrest
  have hprint : (Item.tag mark name).print ++ rest
      = mark.opening ++ (mark.sign ++ (name ++ (mark.closing ++ rest))) := by
    simp only [Item.print, List.append_assoc]
  have hfront : front ++ (Item.tag mark name).print
      = front ++ mark.opening ++ mark.sign ++ name ++ mark.closing := by
    simp only [Item.print, List.append_assoc]
  rw [hprint, hfront, hopening, hsign, hword, hclosing]
  cases tokensFrom true
      (.behind (front ++ mark.opening ++ mark.sign ++ name ++ mark.closing) rest) with
  | error fault => rfl
  | ok ts =>
      refine congrArg Except.ok (congrArg (_ :: ·) ?_)
      exact (List.append_assoc _ [_, _] ts).symm

theorem tokensFrom_text {value : List Char} (hvalue : (Item.text value).Valid)
    (hrest : rest = [] ∨ Opens rest ∧ value.getLast? ≠ some '\x7b') :
    tokensFrom true (.behind front (value ++ rest))
      = (tokensFrom true (.behind (front ++ value) rest)).map
          ((Item.text value).tokens front ++ ·) := by
  obtain ⟨hne, hwhole⟩ := hvalue
  have hbefore := textBefore_behind (proseText_append hwhole hrest) front
  have hprose : Rule.proseText rest = [] := by
    rcases hrest with rfl | ⟨hopens, -⟩
    · rfl
    · exact proseText_of_opens hopens
  have hnone := textBefore_none hprose (front ++ value)
  rw [if_neg hne] at hbefore
  -- both sides go on with the token behind the text
  rw [tokensFrom_eq, tokensFrom_eq true (.behind (front ++ value) rest), hbefore, hnone]
  dsimp only
  rcases tagLexer.next (.behind (front ++ value) rest) with ⟨fault | t, after⟩
  · rfl
  · cases t with
    | none => rfl
    | some t =>
        dsimp only
        split
        · rfl
        · cases tokensFrom (isClosing t) after <;> rfl

end

-- =========================================================== all tokens

/-- A tag begins with braces. -/
theorem opens_tag (mark : Mark) (name : List Char) (rest : List Char) :
    Opens ((Item.tag mark name).print ++ rest) := by
  cases mark <;> exact ⟨_, rfl⟩

/-- What is printed behind a text or a tag is not taken for a part of it. -/
theorem tokensFrom_item {i : Item} {items : List Item} (h : Printable (i :: items))
    (front : List Char) :
    tokensFrom true (.behind front (i.print ++ print items))
      = (tokensFrom true (.behind (front ++ i.print) (print items))).map
          (i.tokens front ++ ·) := by
  obtain ⟨hi, hfits, hmore⟩ := h.cons
  cases i with
  | text value =>
      refine tokensFrom_text front hi ?_
      cases items with
      | nil => exact .inl rfl
      | cons j items =>
          cases j with
          | text _ => exact absurd (hfits _ rfl) id
          | tag mark name => exact .inr ⟨opens_tag mark name _, hfits _ rfl⟩
  | tag mark name =>
      refine tokensFrom_tag front hi fun hmark => ?_
      cases items with
      | nil => exact nofun
      | cons j items =>
          cases j with
          | text value =>
              obtain ⟨hvalue, -⟩ := hmore.cons.1
              obtain ⟨c, r, rfl⟩ := List.exists_cons_of_ne_nil hvalue
              exact hfits _ rfl hmark
          | tag mark name => cases mark <;> exact nofun

/-- The lexer finds the tokens of each text and tag in turn. -/
theorem tokens_print {items : List Item} (h : Printable items) :
    tokens (String.ofList (print items)) = .ok (printedTokens [] items) := by
  have hfrom (front : List Char) :
      tokensFrom true (.behind front (print items)) = .ok (printedTokens front items) := by
    induction items generalizing front with
    | nil =>
        have hnext : tagLexer.next (.behind front []) = (.ok none, .behind front []) :=
          Lexer.next_end front
        show tokensFrom true (.behind front []) = _
        rw [tokensFrom_eq, textBefore_none rfl]
        dsimp only
        rw [hnext]
        rfl
    | cons i items ih =>
        have hprint : print (i :: items) = i.print ++ print items := List.flatMap_cons
        rw [hprint, tokensFrom_item h, ih h.cons.2.2]
        rfl
  unfold tokens
  rw [Cursor.start_eq_behind, String.toList_ofList, hfrom]

-- =============================================================== pieces

/-- The piece of a text or a tag at a place. An end that is called like one
of the words in front of names has no name. -/
def Item.piece (place : Place) : Item → Piece
  | .text value => ⟨.value, some (String.ofList value), place⟩
  | .tag .ended name =>
    ⟨.sectionEnd,
      if sameName (String.ofList name) "if" ∨ sameName (String.ofList name) "unless" then none
      else some (String.ofList name), place⟩
  | .tag mark name => ⟨mark.kind, some (String.ofList name), place⟩

/-- The pieces of texts and tags that stand behind `front`. -/
def printedPieces (front : List Char) : List Item → List Piece
  | [] => []
  | i :: items => i.piece (.after front) :: printedPieces (front ++ i.print) items

/-- The machine makes one piece of a text or a tag and is outside again. -/
theorem piecesFrom_item (last : Place) (front : List Char) (i : Item) (ts : List Token) :
    piecesFrom last .outside (i.tokens front ++ ts)
      = (piecesFrom last .outside ts).map (i.piece (.after front) :: ·) := by
  cases i with
  | text value => rfl
  | tag mark name =>
      cases mark with
      | raw => rfl
      | escaped => rfl
      | inverted => rfl
      | opened =>
          let tag : OpenTag := ⟨false, .sectionStart, none, [], .after front⟩
          show piecesFrom last ⟨.qualifier, some tag⟩ (_ :: _) = _
          -- what comes behind the first `if` is a name, be it another `if`
          have hword : sameName (String.ofList ['i', 'f']) "if" = true := by decide
          have hread : tag.read .qualifier
              (tokenAt (front ++ Mark.opening .opened ++ ['#']) .word ['i', 'f'])
                = .ok (tag, .name) := if_pos hword
          exact (piecesFrom_read hread nofun rfl).trans rfl
      | ended =>
          let tag : OpenTag := ⟨false, .sectionEnd, none, [], .after front⟩
          let word := tokenAt (front ++ Mark.opening .ended ++ Mark.sign .ended) .word name
          have hpiece : (Item.tag .ended name).piece (.after front) = ⟨.sectionEnd,
            if sameName (String.ofList name) "if" ∨ sameName (String.ofList name) "unless" then none
            else some (String.ofList name), .after front⟩ := rfl
          rw [hpiece]
          show piecesFrom last ⟨.name, some tag⟩ (word :: _) = _
          split
          · next hname =>
            have hread : tag.read .name word = .ok (tag, .close) := if_pos ⟨rfl, hname⟩
            exact (piecesFrom_read hread nofun rfl).trans rfl
          · next hname =>
            have hread : tag.read .name word
                = .ok ({ tag with name := some (String.ofList name) }, .close) :=
              if_neg fun h => hname h.2
            exact (piecesFrom_read hread nofun rfl).trans rfl

/-- The machine makes one piece of each text and tag. -/
theorem pieces_print (items : List Item) :
    pieces (printedTokens [] items) = .ok (printedPieces [] items) := by
  have hfrom (last : Place) (front : List Char) :
      piecesFrom last .outside (printedTokens front items) = .ok (printedPieces front items) := by
    induction items generalizing front with
    | nil => rfl
    | cons i items ih =>
        rw [printedTokens, piecesFrom_item, ih]
        rfl
  exact hfrom _ _

end Template

end Formula
