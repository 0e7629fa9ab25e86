/-
Sections read two ways: by the recursion that builds the tree, and by a
scan from left to right that keeps the open sections, the innermost first.
Main statement: the two agree, on failures too, and the tree lists the
pieces in their order, with an end after the children of every section
(`tree_agrees_scan`).

The recursion works on one list at all depths. What carries the proof is
what it is to have read a block (`Reads`): it leaves the scan with the same
sections open but the one the block belongs to.
-/
import Formula.Template.Node

namespace Formula

namespace Template

-- ================================================================ the scan

/-- Whether a section end closes an open section: it is unnamed, or has the
same name but for the case of ASCII letters. -/
def Piece.endedBy (opened sectionEnd : Piece) : Bool :=
  match opened.text, sectionEnd.text with
  | _, none => true
  | some n, some name => sameName n name
  | none, some _ => false

/-- The open sections after a piece, the innermost first. -/
def advance (opened : List Piece) (p : Piece) :
    Except Fault (List Piece) :=
  match p.kind with
  | .sectionStart | .invertedStart =>
    if opened.length < 128 then .ok (p :: opened)
    else .error (.atPlace (.sectionsTooDeep 128) p.place)
  | .sectionEnd =>
    if opened.head?.any fun s => s.endedBy p then .ok opened.tail
    else .error (.atPlace (.unexpectedSectionEnd (p.text.getD "")) p.place)
  | .value | .variable | .escapedVariable | .comment => .ok opened

/-- Scans pieces with some sections open. None may be open at the end. -/
def scan (opened : List Piece) : List Piece → Except Fault Unit
  | [] =>
    match opened with
    | [] => .ok ()
    | s :: _ =>
      .error (.atPlace (.sectionNotClosed (s.text.getD "")) s.place)
  | p :: ps =>
    match advance opened p with
    | .error fault => .error fault
    | .ok opened => scan opened ps

-- ================================================================ listings

/-- A piece as it is listed; a section end is nothing but an end. -/
def entry (p : Piece) : Option Piece :=
  if p.kind = .sectionEnd then none else some p

/-- Pieces as they are listed. Comments are not. -/
def entries (ps : List Piece) : List (Option Piece) :=
  (ps.filter fun p => p.kind ≠ .comment).map entry

mutual

/-- A node before its children, and an end after those of a section. -/
def Node.listing : Node → List (Option Piece)
  | .mk p ns => some p :: listings ns ++
    (if p.kind = .sectionStart ∨ p.kind = .invertedStart then [none] else [])

/-- Several nodes, one after the other. -/
def Node.listings : List Node → List (Option Piece)
  | [] => []
  | n :: ns => n.listing ++ listings ns

end

-- ============================================================= the reading

/-- The nodes of a block and the pieces behind it. -/
def readBlock (depth : Nat) (opened : Option Piece) (ps : List Piece) :
    Except Fault (List Node × List Piece) :=
  (block depth opened ps).map fun b => (b.nodes, b.rest)

section

variable {depth : Nat} {opened : Option Piece} {p : Piece}
  {ps rest : List Piece} {ns : List Node}

/-- What is left of some pieces is not longer. -/
theorem length_le_of_readBlock
    (h : readBlock depth opened ps = .ok (ns, rest)) :
    rest.length ≤ ps.length := by
  unfold readBlock at h
  cases hb : block depth opened ps with
  | error fault => rw [hb] at h; cases h
  | ok b =>
      rw [hb] at h
      cases h
      exact b.short

/-- A block ends with the template at the top only. -/
theorem readBlock_nil : readBlock depth opened [] =
    match opened with
    | none => .ok ([], [])
    | some s => .error (notClosed s) := by
  unfold readBlock
  cases opened with
  | none => rw [block]; rfl
  | some s => rw [block]; rfl

/-- Comments are skipped. -/
theorem readBlock_comment (h : p.kind = .comment) :
    readBlock depth opened (p :: ps) = readBlock depth opened ps := by
  unfold readBlock
  rw [block, h]
  cases block depth opened ps <;> rfl

/-- Texts and variables have nothing inside. -/
theorem readBlock_leaf
    (h : p.kind = .value ∨ p.kind = .variable
      ∨ p.kind = .escapedVariable) :
    readBlock depth opened (p :: ps)
      = (readBlock depth opened ps).map fun b =>
          (.mk p [] :: b.1, b.2) := by
  unfold readBlock
  rcases h with h | h | h
  all_goals
    rw [block, h]
    cases block depth opened ps <;> rfl

/-- A section end ends the block of its section. -/
theorem readBlock_end (h : p.kind = .sectionEnd) :
    readBlock depth opened (p :: ps)
      = if closes opened p then .ok ([], ps)
        else .error (unexpectedEnd p) := by
  unfold readBlock
  rw [block, h]
  by_cases hc : closes opened p
  · simp [hc, Except.map]
  · simp [hc, Except.map]

/-- A section is read as a block, and then what is behind it. -/
theorem readBlock_section
    (h : p.kind = .sectionStart ∨ p.kind = .invertedStart) :
    readBlock depth opened (p :: ps)
      = if maxSections ≤ depth then
          .error (.atPlace (.sectionsTooDeep maxSections) p.place)
        else
          (readBlock (depth + 1) (some p) ps).bind fun inner =>
            (readBlock depth opened inner.2).map fun b =>
              (.mk p inner.1 :: b.1, b.2) := by
  unfold readBlock
  rcases h with h | h
  all_goals
    rw [block, h]
    by_cases hd : maxSections ≤ depth
    · simp [hd, Except.map]
    · simp only [hd, if_false]
      cases block (depth + 1) (some p) ps with
      | error fault => rfl
      | ok inner =>
          show ((block depth opened inner.rest).map _).map _
            = ((block depth opened inner.rest).map _).map _
          cases block depth opened inner.rest <;> rfl

end

-- =================================================================== kinds

/-- What pieces are to sections: nothing at all, something inside one, the
beginning of one, or an end. -/
theorem kind_cases (p : Piece) :
    p.kind = .comment
      ∨ (p.kind = .value ∨ p.kind = .variable
          ∨ p.kind = .escapedVariable)
      ∨ (p.kind = .sectionStart ∨ p.kind = .invertedStart)
      ∨ p.kind = .sectionEnd := by
  cases p.kind <;> simp

section

variable {p : Piece} {opened ps : List Piece}

/-- An end closes the innermost open section if there is one and the end is
one for it. -/
theorem closes_eq_any (opened : Option Piece) (p : Piece) :
    closes opened p = opened.any fun s => s.endedBy p := by
  unfold closes Piece.endedBy
  cases opened with
  | none => rfl
  | some s =>
      cases hp : p.text with
      | none => cases s.text <;> simp
      | some name => cases hs : s.text <;> simp [hs]

theorem scan_comment (h : p.kind = .comment) :
    scan opened (p :: ps) = scan opened ps := by
  rw [scan, advance, h]

theorem scan_leaf
    (h : p.kind = .value ∨ p.kind = .variable
      ∨ p.kind = .escapedVariable) :
    scan opened (p :: ps) = scan opened ps := by
  rcases h with h | h | h
  · rw [scan, advance, h]
  · rw [scan, advance, h]
  · rw [scan, advance, h]

/-- A section may begin where fewer than 128 are open. -/
theorem scan_section
    (h : p.kind = .sectionStart ∨ p.kind = .invertedStart) :
    scan opened (p :: ps)
      = if maxSections ≤ opened.length then
          .error (.atPlace (.sectionsTooDeep maxSections) p.place)
        else scan (p :: opened) ps := by
  by_cases hd : maxSections ≤ opened.length
  · have hlt : ¬opened.length < 128 := Nat.not_lt.mpr hd
    rw [if_pos hd]
    rcases h with h | h
    · rw [scan, advance, h]
      simp only [if_neg hlt]
      rfl
    · rw [scan, advance, h]
      simp only [if_neg hlt]
      rfl
  · have hlt : opened.length < 128 := Nat.not_le.mp hd
    rw [if_neg hd]
    rcases h with h | h
    · rw [scan, advance, h]
      simp only [if_pos hlt]
    · rw [scan, advance, h]
      simp only [if_pos hlt]

/-- An end has to close the innermost open section. -/
theorem scan_end (h : p.kind = .sectionEnd) :
    scan opened (p :: ps)
      = if closes opened.head? p then scan opened.tail ps
        else .error (unexpectedEnd p) := by
  rw [scan, advance, h, closes_eq_any]
  by_cases hc : opened.head?.any fun s => s.endedBy p
  · simp only [if_pos hc]
  · simp only [if_neg hc]
    rfl

theorem entries_comment (h : p.kind = .comment) :
    entries (p :: ps) = entries ps := by
  simp [entries, h]

/-- Everything but comments and ends is listed as it is. -/
theorem entries_piece (hcomment : p.kind ≠ .comment)
    (hend : p.kind ≠ .sectionEnd) :
    entries (p :: ps) = some p :: entries ps := by
  simp [entries, entry, hcomment, hend]

theorem entries_end (h : p.kind = .sectionEnd) :
    entries (p :: ps) = none :: entries ps := by
  simp [entries, entry, h]

end

-- ============================================================== agreement

/-- What it is to have read a block: the scan is left with one section
less, and the pieces were the nodes of the block, the end of its section
and what is behind it. -/
structure Reads (opened ps : List Piece) (ns : List Node)
    (rest : List Piece) : Prop where
  scans : scan opened ps = scan opened.tail rest
  lists : entries ps = Node.listings ns
    ++ ((opened.head?.map fun _ => none).toList ++ entries rest)
  ends : opened = [] → rest = []

/-- A comment before a block is not in it. -/
theorem Reads.comment {opened ps rest : List Piece} {ns : List Node}
    {p : Piece} (hp : p.kind = .comment) (h : Reads opened ps ns rest) :
    Reads opened (p :: ps) ns rest where
  scans := (scan_comment hp).trans h.scans
  lists := (entries_comment hp).trans h.lists
  ends := h.ends

/-- A text or variable before a block is its first node. -/
theorem Reads.leaf {opened ps rest : List Piece} {ns : List Node}
    {p : Piece}
    (hp : p.kind = .value ∨ p.kind = .variable
      ∨ p.kind = .escapedVariable) (h : Reads opened ps ns rest) :
    Reads opened (p :: ps) (.mk p [] :: ns) rest where
  scans := (scan_leaf hp).trans h.scans
  lists := by
    have hlisting : (Node.mk p []).listing = [some p] := by
      rw [Node.listing, if_neg]
      · rfl
      · rcases hp with hp | hp | hp <;> rw [hp] <;> decide
    have hentries : entries (p :: ps) = some p :: entries ps := by
      rcases hp with hp | hp | hp <;>
        exact entries_piece (by rw [hp]; decide) (by rw [hp]; decide)
    rw [hentries, h.lists, Node.listings, hlisting]
    rfl
  ends := h.ends

/-- An end ends the block of the section it closes. -/
theorem Reads.last {opened ps : List Piece} {p : Piece}
    (hp : p.kind = .sectionEnd) (hc : closes opened.head? p = true) :
    Reads opened (p :: ps) [] ps where
  scans := by rw [scan_end hp, if_pos hc]
  lists := by
    cases opened with
    | nil => cases hc
    | cons s below => exact entries_end hp
  ends := by
    intro hnil
    rw [hnil] at hc
    cases hc

/-- A section before a block is its first node. -/
theorem Reads.inside {opened ps mid rest : List Piece}
    {ns inner : List Node} {p : Piece}
    (hp : p.kind = .sectionStart ∨ p.kind = .invertedStart)
    (hd : ¬maxSections ≤ opened.length)
    (hinner : Reads (p :: opened) ps inner mid)
    (h : Reads opened mid ns rest) :
    Reads opened (p :: ps) (.mk p inner :: ns) rest where
  scans := by
    rw [scan_section hp, if_neg hd, hinner.scans]
    exact h.scans
  lists := by
    have hentries : entries (p :: ps) = some p :: entries ps := by
      rcases hp with hp | hp <;>
        exact entries_piece (by rw [hp]; decide) (by rw [hp]; decide)
    rw [hentries, hinner.lists, h.lists, Node.listings, Node.listing,
      if_pos hp]
    simp
  ends := h.ends

/-- What the attempt to read a block has to do with the scan: a block that
was read is one, and a failure is that of the scan. -/
def Agrees (opened ps : List Piece) :
    Except Fault (List Node × List Piece) → Prop
  | .ok b => Reads opened ps b.1 b.2
  | .error fault => scan opened ps = .error fault

/-- Reading a block agrees with the scan wherever the two start. -/
theorem agrees_readBlock (opened ps : List Piece) :
    Agrees opened ps (readBlock opened.length opened.head? ps) := by
  match ps with
  | [] =>
      rw [readBlock_nil]
      cases opened with
      | nil => exact ⟨rfl, rfl, fun _ => rfl⟩
      | cons s below => exact rfl
  | p :: ps =>
      rcases kind_cases p with hp | hp | hp | hp
      · rw [readBlock_comment hp]
        have hblock := agrees_readBlock opened ps
        cases hb : readBlock opened.length opened.head? ps with
        | error fault =>
            rw [hb] at hblock
            exact (scan_comment hp).trans hblock
        | ok b =>
            rw [hb] at hblock
            exact Reads.comment hp hblock
      · rw [readBlock_leaf hp]
        have hblock := agrees_readBlock opened ps
        cases hb : readBlock opened.length opened.head? ps with
        | error fault =>
            rw [hb] at hblock
            exact (scan_leaf hp).trans hblock
        | ok b =>
            rw [hb] at hblock
            exact Reads.leaf hp hblock
      · rw [readBlock_section hp]
        have hscan : scan opened (p :: ps) = _ := scan_section hp
        by_cases hd : maxSections ≤ opened.length
        · rw [if_pos hd] at hscan ⊢
          exact hscan
        · rw [if_neg hd] at hscan ⊢
          have hinner : Agrees (p :: opened) ps
              (readBlock (opened.length + 1) (some p) ps) :=
            agrees_readBlock (p :: opened) ps
          cases hb : readBlock (opened.length + 1) (some p) ps with
          | error fault =>
              rw [hb] at hinner
              exact hscan.trans hinner
          | ok inner =>
              obtain ⟨inner, mid⟩ := inner
              rw [hb] at hinner
              have hshort := length_le_of_readBlock hb
              have hblock := agrees_readBlock opened mid
              show Agrees opened (p :: ps)
                ((readBlock opened.length opened.head? mid).map _)
              cases hmid : readBlock opened.length opened.head? mid with
              | error fault =>
                  rw [hmid] at hblock
                  exact hscan.trans (hinner.scans.trans hblock)
              | ok b =>
                  rw [hmid] at hblock
                  exact Reads.inside hp hd hinner hblock
      · rw [readBlock_end hp]
        by_cases hc : closes opened.head? p
        · rw [if_pos hc]
          exact Reads.last hp hc
        · rw [if_neg hc]
          show scan opened (p :: ps) = _
          rw [scan_end hp, if_neg hc]
termination_by ps.length
decreasing_by
  all_goals
    simp only [List.length_cons]
    omega

/-- Building the tree succeeds where the scan does, and fails as the scan
does: at the 129th section in one another, at an end that does not close
the innermost open section, or for want of ends. The tree of a template
lists its pieces in order, without comments, with an end behind the children
of every section. -/
theorem tree_agrees_scan (ps : List Piece) :
    ((tree ps).map fun _ => ()) = scan [] ps
      ∧ ∀ ns, tree ps = .ok ns → Node.listings ns = entries ps := by
  have htree : tree ps = (readBlock 0 none ps).map Prod.fst := by
    unfold tree readBlock
    cases block 0 none ps <;> rfl
  have hagrees : Agrees [] ps (readBlock 0 none ps) :=
    agrees_readBlock [] ps
  rw [htree]
  cases h : readBlock 0 none ps with
  | error fault =>
      rw [h] at hagrees
      have hscan : scan [] ps = .error fault := hagrees
      exact ⟨hscan.symm, fun ns hns => by cases hns⟩
  | ok b =>
      obtain ⟨ns, rest⟩ := b
      rw [h] at hagrees
      have hreads : Reads [] ps ns rest := hagrees
      have hrest : rest = [] := hreads.ends rfl
      subst hrest
      refine ⟨hreads.scans.symm, fun ns' hns => ?_⟩
      cases hns
      rw [hreads.lists]
      simp [entries]

end Template

end Formula
