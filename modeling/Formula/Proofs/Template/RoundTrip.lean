/-
That what is printed is read back. Main statement: if the texts of a
template cannot be taken for more or less than they are, and sections are
nested no deeper than is allowed, reading what is printed gives the nodes
that were printed, whatever the names (`ofText_print`).

The names `if` and `unless` need no exception. A section end of either name
is unnamed when it is read, and an unnamed end closes what is open.
-/
import Formula.Proofs.Template.Printing
import Formula.Proofs.Template.Sections
import Formula.Template.Parsed

namespace Formula

namespace Template

-- ================================================================ templates

/-- A part of a template: a text, a variable, or a section with the parts
inside it. -/
inductive Part where
  | text (value : List Char)
  | insert (raw : Bool) (name : List Char)
  | block (inverted : Bool) (name : List Char) (parts : List Part)

namespace Part

mutual

/-- The texts and tags of a part. A section is its tag, what is inside it,
and an end with its name. -/
def items : Part → List Item
  | text value => [.text value]
  | insert raw name => [.tag (if raw then .raw else .escaped) name]
  | block inverted name parts =>
    .tag (if inverted then .inverted else .opened) name :: (allItems parts ++ [.tag .ended name])

/-- The texts and tags of several parts. -/
def allItems : List Part → List Item
  | [] => []
  | p :: ps => p.items ++ allItems ps

end

mutual

/-- How deep sections are nested. -/
def depth : Part → Nat
  | text _ | insert _ _ => 0
  | block _ _ parts => allDepth parts + 1

def allDepth : List Part → Nat
  | [] => 0
  | p :: ps => max p.depth (allDepth ps)

end

mutual

/-- A part as a node that has no place of its own. -/
def node : Part → Node
  | text value => .mk ⟨.value, some (String.ofList value), .origin⟩ []
  | insert raw name =>
    .mk ⟨if raw then .variable else .escapedVariable, some (String.ofList name), .origin⟩ []
  | block inverted name parts =>
    .mk ⟨if inverted then .invertedStart else .sectionStart, some (String.ofList name), .origin⟩
      (nodes parts)

def nodes : List Part → List Node
  | [] => []
  | p :: ps => p.node :: nodes ps

end

end Part

mutual

/-- A node without the places of its pieces. -/
def Node.unplaced : Node → Node
  | .mk p ns => .mk { p with place := .origin } (Node.allUnplaced ns)

def Node.allUnplaced : List Node → List Node
  | [] => []
  | n :: ns => n.unplaced :: Node.allUnplaced ns

end

-- ================================================================= reading

theorem printedPieces_append (front : List Char) (xs ys : List Item) :
    printedPieces front (xs ++ ys)
      = printedPieces front xs ++ printedPieces (front ++ print xs) ys := by
  induction xs generalizing front with
  | nil => simp [printedPieces, print]
  | cons i xs ih =>
      have hprint : front ++ print (i :: xs) = front ++ i.print ++ print xs := by
        simp [print]
      rw [hprint, List.cons_append, printedPieces, ih, printedPieces, List.cons_append]

/-- An end closes a section of its name, and if it is unnamed any section. -/
theorem closes_ended (mark : Mark) (name : List Char) (place place' : Place) :
    closes (some ⟨mark.kind, some (String.ofList name), place⟩)
      ((Item.tag .ended name).piece place') = true := by
  have hpiece : (Item.tag .ended name).piece place' = ⟨.sectionEnd,
    if sameName (String.ofList name) "if" ∨ sameName (String.ofList name) "unless" then none
    else some (String.ofList name), place'⟩ := rfl
  rw [hpiece]
  split
  · rfl
  · exact sameName_refl (String.ofList name)

/-- The pieces of a section make one node if those inside it make nodes. -/
theorem readBlock_block {mark : Mark} {name front : List Char} {items : List Item} {depth : Nat}
    {opened : Option Piece} {rest : List Piece} {ns : List Node}
    (hmark : mark = .opened ∨ mark = .inverted) (hdepth : depth < maxSections)
    (hinside : ∀ rest, readBlock (depth + 1)
        (some ⟨mark.kind, some (String.ofList name), .after front⟩)
        (printedPieces (front ++ (Item.tag mark name).print) items ++ rest)
      = (readBlock (depth + 1) (some ⟨mark.kind, some (String.ofList name), .after front⟩) rest).map
          fun b => (ns ++ b.1, b.2)) :
    readBlock depth opened
        (printedPieces front (.tag mark name :: (items ++ [.tag .ended name])) ++ rest)
      = (readBlock depth opened rest).map fun b =>
          (.mk ⟨mark.kind, some (String.ofList name), .after front⟩ ns :: b.1, b.2) := by
  have hkind : mark.kind = .sectionStart ∨ mark.kind = .invertedStart := by
    rcases hmark with rfl | rfl
    · exact .inl rfl
    · exact .inr rfl
  have hpiece (place : Place) : (Item.tag mark name).piece place
      = ⟨mark.kind, some (String.ofList name), place⟩ := by
    rcases hmark with rfl | rfl <;> rfl
  have hend (place : Place) : ((Item.tag .ended name).piece place).kind = .sectionEnd := rfl
  rw [printedPieces, printedPieces_append, hpiece, List.cons_append, List.append_assoc,
    readBlock_section hkind, if_neg (Nat.not_le.2 hdepth), hinside]
  simp only [printedPieces, List.cons_append, List.nil_append]
  rw [readBlock_end (hend _), if_pos (closes_ended _ _ _ _)]
  simp [Except.map, Except.bind]

/-- The tree of some pieces is the block they make at the top. -/
theorem tree_eq_readBlock (ps : List Piece) : tree ps = (readBlock 0 none ps).map Prod.fst := by
  unfold tree readBlock
  cases block 0 none ps <;> rfl

mutual

/-- The pieces of a part make its node. -/
theorem readBlock_part (p : Part) {depth : Nat} (hdepth : depth + p.depth ≤ maxSections)
    (front : List Char) (opened : Option Piece) :
    ∃ n : Node, n.unplaced = p.node
      ∧ ∀ rest, readBlock depth opened (printedPieces front p.items ++ rest)
        = (readBlock depth opened rest).map fun b => (n :: b.1, b.2) := by
  match p with
  | .text value => exact ⟨_, rfl, fun rest => readBlock_leaf (.inl rfl)⟩
  | .insert raw name =>
      cases raw with
      | true => exact ⟨_, rfl, fun rest => readBlock_leaf (.inr (.inl rfl))⟩
      | false => exact ⟨_, rfl, fun rest => readBlock_leaf (.inr (.inr rfl))⟩
  | .block inverted name parts =>
      rw [Part.depth] at hdepth
      have hinside : depth + 1 + Part.allDepth parts ≤ maxSections := by omega
      have hmark : (if inverted then Mark.inverted else .opened) = .opened
          ∨ (if inverted then Mark.inverted else .opened) = .inverted := by
        cases inverted with
        | true => exact .inr rfl
        | false => exact .inl rfl
      obtain ⟨ns, hns, hread⟩ := readBlock_parts parts hinside
        (front ++ (Item.tag (if inverted then .inverted else .opened) name).print) _
      refine ⟨_, ?_, fun rest => readBlock_block hmark (by omega) hread⟩
      rw [Node.unplaced, hns]
      cases inverted <;> rfl

/-- The pieces of several parts make their nodes. -/
theorem readBlock_parts (ps : List Part) {depth : Nat}
    (hdepth : depth + Part.allDepth ps ≤ maxSections) (front : List Char) (opened : Option Piece) :
    ∃ ns, Node.allUnplaced ns = Part.nodes ps
      ∧ ∀ rest, readBlock depth opened (printedPieces front (Part.allItems ps) ++ rest)
        = (readBlock depth opened rest).map fun b => (ns ++ b.1, b.2) := by
  match ps with
  | [] =>
      refine ⟨[], rfl, fun rest => ?_⟩
      show readBlock depth opened rest = _
      cases readBlock depth opened rest <;> rfl
  | p :: ps =>
      rw [Part.allDepth] at hdepth
      have hfirst : depth + p.depth ≤ maxSections := by omega
      have hmore : depth + Part.allDepth ps ≤ maxSections := by omega
      obtain ⟨n, hn, hpart⟩ := readBlock_part p hfirst front opened
      obtain ⟨ns, hns, hparts⟩ := readBlock_parts ps hmore (front ++ print p.items) opened
      refine ⟨n :: ns, ?_, fun rest => ?_⟩
      · rw [Node.allUnplaced, hn, hns, Part.nodes]
      · rw [Part.allItems, printedPieces_append, List.append_assoc, hpart, hparts]
        cases readBlock depth opened rest <;> rfl

end

/-- Reading what is printed gives the nodes that were printed. -/
theorem ofText_print {ps : List Part} (hdepth : Part.allDepth ps ≤ 128)
    (hprint : Printable (Part.allItems ps)) :
    ((Parsed.ofText (String.ofList (print (Part.allItems ps)))).map
      fun parsed => Node.allUnplaced parsed.nodes) = .ok (Part.nodes ps) := by
  have htop : 0 + Part.allDepth ps ≤ maxSections := by
    rw [Nat.zero_add]
    exact hdepth
  obtain ⟨ns, hns, hread⟩ := readBlock_parts ps htop [] none
  have htree : tree (printedPieces [] (Part.allItems ps)) = .ok ns := by
    have hall := hread []
    rw [List.append_nil, readBlock_nil] at hall
    rw [tree_eq_readBlock, hall]
    exact congrArg Except.ok (List.append_nil ns)
  unfold Parsed.ofText
  rw [tokens_print hprint]
  show (Parsed.ofSource _ (printedTokens [] (Part.allItems ps))).map _ = _
  unfold Parsed.ofSource
  rw [pieces_print]
  show ((tree (printedPieces [] (Part.allItems ps))).bind _).map _ = _
  rw [htree]
  exact congrArg Except.ok hns

/-- Braces next to tags, and sections called like the words in front of
names. -/
def conditional : List Part :=
  [.text ['\x7d'], .insert true ['i', 'f'], .text ['\x7d', '\x7b', '!'],
    .block false ['i', 'f'] [.block true ['U', 'n', 'l', 'e', 's', 's'] [], .insert false ['.']],
    .text ['\x7b']]

theorem ofText_print_conditional :
    (Parsed.ofText ("\x7d\x7b\x7b\x7bif\x7d\x7d\x7d\x7d\x7b!\x7b\x7b#if if\x7d\x7d"
      ++ "\x7b\x7b^Unless\x7d\x7d\x7b\x7b/Unless\x7d\x7d\x7b\x7b.\x7d\x7d\x7b\x7b/if\x7d\x7d\x7b")).map
        (fun parsed => Node.allUnplaced parsed.nodes) = .ok (Part.nodes conditional) :=
  @ofText_print conditional (by decide) (by decide)

end Template

end Formula
