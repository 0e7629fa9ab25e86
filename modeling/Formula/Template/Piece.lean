/-
The pieces of a template: stretches of text and tags, in the order of the
source. Tags are read by a machine that waits for what may come next, and
keeps the tag that is open beside that. To be inside a tag without an open
one is a failure of its own, which no tokens can bring about.

`pieces` stops at the first token that fits no continuation. A closing
bracket is judged by its kind first, and then by whether a name is still
missing.
-/
import Formula.Fault
import Formula.Template.Lexer
import Formula.Text.Case

namespace Formula

namespace Template

-- ================================================================ pieces

/-- The kinds of pieces. -/
inductive PieceKind where
  /-- Text outside tags. -/
  | value
  /-- A variable inserted as it is. -/
  | variable
  /-- A variable inserted escaped. -/
  | escapedVariable
  | sectionStart
  | invertedStart
  | sectionEnd
  | comment
  deriving DecidableEq, Repr

/-- The name of a kind in listings. -/
def PieceKind.name : PieceKind → String
  | .value => "Value"
  | .variable => "Variable"
  | .escapedVariable => "EscapedVariable"
  | .sectionStart => "Section"
  | .invertedStart => "InvertedSection"
  | .sectionEnd => "SectionEnd"
  | .comment => "Comment"

/-- Text, or a tag with its name or comment. -/
structure Piece where
  kind : PieceKind
  text : Option String
  place : Place
  deriving DecidableEq, Repr

/-- The name that a piece refers to: that of a variable or section. -/
def Piece.reference? (p : Piece) : Option String :=
  match p.kind with
  | .variable | .escapedVariable | .sectionStart | .invertedStart => p.text
  | .value | .sectionEnd | .comment => none

-- =================================================================== tags

/-- A tag whose closing bracket has not come yet. -/
structure OpenTag where
  raw : Bool
  kind : PieceKind
  name : Option String
  /-- The words of a comment, the last one first. -/
  words : List String
  place : Place

/-- What may come next. -/
inductive Wanted where
  /-- Text or a tag: no tag is open. -/
  | text
  /-- A name or a mark that says which tag this is. -/
  | start
  /-- A name, or one of the words `if` and `unless`. -/
  | qualifier
  /-- A name, without which a section end may do. -/
  | name
  /-- The closing bracket and nothing else. -/
  | close
  /-- Anything, up to a closing bracket. -/
  | comment
  deriving DecidableEq, Repr

/-- The tag that an opening bracket begins. -/
def OpenTag.start (t : Token) : OpenTag :=
  let raw := t.text == openingRaw
  ⟨raw, if raw then .variable else .escapedVariable, none, [], t.place⟩

def OpenTag.opening (tag : OpenTag) : String := if tag.raw then openingRaw else Template.opening

def OpenTag.closing (tag : OpenTag) : String := if tag.raw then closingRaw else Template.closing

/-- The failure at a token that fits nothing. -/
def unexpected (t : Token) : Fault := .atPlace (.unexpectedSymbol t.text) t.place

/-- The kind of tag that a mark begins, and what comes after the mark. -/
def marked? (text : String) : Option (PieceKind × Wanted) :=
  if text = "#" then some (.sectionStart, .qualifier)
  else if text = "^" then some (.invertedStart, .name)
  else if text = "/" then some (.sectionEnd, .name)
  else if text = "!" then some (.comment, .comment)
  else none

/-- Reads a token inside a tag that is no closing bracket. -/
def OpenTag.read (tag : OpenTag) (wanted : Wanted) (t : Token) :
    Except Fault (OpenTag × Wanted) :=
  match wanted, t.kind with
  | .comment, _ => .ok ({ tag with words := t.text :: tag.words }, .comment)
  | .start, .word => .ok ({ tag with name := some t.text }, .close)
  | .start, .symbol =>
    match tag.raw, marked? t.text with
    | false, some (kind, next) => .ok ({ tag with kind := kind }, next)
    | _, _ => .error (unexpected t)
  | .qualifier, .word =>
    if sameName t.text "if" then .ok (tag, .name)
    else if sameName t.text "unless" then .ok ({ tag with kind := .invertedStart }, .name)
    else .ok ({ tag with name := some t.text }, .close)
  | .name, .word =>
    if tag.kind = .sectionEnd ∧ (sameName t.text "if" ∨ sameName t.text "unless") then
      .ok (tag, .close)
    else .ok ({ tag with name := some t.text }, .close)
  | _, _ => .error (unexpected t)

/-- The piece that a tag makes at its closing bracket. -/
def OpenTag.finish (tag : OpenTag) (wanted : Wanted) (t : Token) : Except Fault Piece :=
  if t.text ≠ tag.closing then .error (.atPlace (.mismatchedBrackets tag.opening t.text) t.place)
  else if wanted = .comment then
    .ok ⟨.comment, some (String.intercalate " " tag.words.reverse), tag.place⟩
  else if tag.name = none ∧ tag.kind ≠ .sectionEnd then .error (.atPlace .missingName t.place)
  else .ok ⟨tag.kind, tag.name, tag.place⟩

-- ============================================================= the machine

/-- Where the machine is: what it waits for, and the tag that is open. -/
structure Mode where
  wanted : Wanted
  tag : Option OpenTag

/-- Outside tags. -/
def Mode.outside : Mode := ⟨.text, none⟩

/-- One token: the next mode, and the piece that is complete now. -/
def Mode.step (mode : Mode) (t : Token) : Except Fault (Mode × Option Piece) :=
  if mode.wanted = .text then
    if t.kind = .special then .ok (mode, some ⟨.value, some t.text, t.place⟩)
    else if isOpening t then .ok (⟨.start, some (.start t)⟩, none)
    else .error (unexpected t)
  else
    match mode.tag with
    | none => .error (.atPlace .noOpenTag t.place)
    | some tag =>
      if isClosing t then (tag.finish mode.wanted t).map fun p => (.outside, some p)
      else (tag.read mode.wanted t).map fun (tag, wanted) => (⟨wanted, some tag⟩, none)

/-- The pieces of tokens read in some mode; `last` is the place to report
if they end inside a tag. -/
def piecesFrom (last : Place) : Mode → List Token → Except Fault (List Piece)
  | mode, [] => if mode.wanted = .text then .ok [] else .error (.atPlace .endOfTemplate last)
  | mode, t :: ts =>
    match mode.step t with
    | .error fault => .error fault
    | .ok (mode, none) => piecesFrom last mode ts
    | .ok (mode, some p) => (piecesFrom last mode ts).map (p :: ·)

/-- The pieces of a list of tokens. -/
def pieces (ts : List Token) : Except Fault (List Piece) :=
  piecesFrom ((ts.getLast?.map Token.place).getD .origin) .outside ts

end Template

end Formula
