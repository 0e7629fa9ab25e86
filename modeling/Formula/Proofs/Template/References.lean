/-
The names that a template reports are those of its tree. They are known before
the tree is: a parser adds the name of a tag as soon as the tag is closed, long
before it knows where sections end. What makes the two agree is that the tree
holds all pieces in order but for comments and section ends
(`preorders_of_tree`), and these refer to nothing.

Main statement: `names_preorder`.
-/
import Formula.Proofs.Template.Phases
import Formula.Proofs.Template.Sections

namespace Formula

-- ========================================================= first spellings

namespace Names

/-- The names of a list without those that are the same as an earlier one. -/
def firsts : List String → List String
  | [] => []
  | n :: ns => n :: (firsts ns).filter fun m => !sameName n m

/-- What is not the same as a name that was seen before is kept where it comes
first. -/
theorem distinctFrom_eq_filter (seen names : List String) :
    distinctFrom seen names = (firsts names).filter fun m => !seen.any (sameName m) := by
  induction names generalizing seen with
  | nil => rfl
  | cons n names ih =>
      rw [distinctFrom, firsts]
      cases hseen : seen.any (sameName n) with
      | true =>
          obtain ⟨k, hk, hsame⟩ := List.any_eq_true.1 hseen
          -- what is the same as `n` is the same as `k`, which was seen
          have hknown : ∀ m, (!seen.any (sameName m) && !sameName n m)
              = !seen.any (sameName m) := by
            intro m
            cases hm : sameName n m with
            | false => rw [Bool.not_false, Bool.and_true]
            | true =>
                have hseenm : seen.any (sameName m) = true := by
                  refine List.any_eq_true.2 ⟨k, hk, ?_⟩
                  rw [← sameName_congr hsame, sameName_comm, hm]
                rw [hseenm]
                rfl
          rw [if_pos rfl, List.filter_cons_of_neg (by simp [hseen]), List.filter_filter, ih]
          exact List.filter_congr fun m _ => (hknown m).symm
      | false =>
          have hmore : ∀ m, (!(n :: seen).any (sameName m))
              = (!seen.any (sameName m) && !sameName n m) := by
            intro m
            rw [List.any_cons, Bool.not_or, Bool.and_comm, sameName_comm]
          rw [if_neg Bool.false_ne_true, List.filter_cons_of_pos (by simp [hseen]),
            List.filter_filter, ih]
          congr 1
          exact List.filter_congr fun m _ => hmore m

theorem distinct_eq_firsts (names : List String) : distinct names = firsts names := by
  rw [distinct, distinctFrom_eq_filter]
  exact List.filter_eq_self.2 fun _ _ => rfl

end Names

namespace Template

-- ============================================================== pre-order

mutual

/-- The piece of a node before those of the nodes inside it. -/
def Node.preorder : Node → List Piece
  | .mk p ns => p :: preorders ns

/-- The pieces of several nodes, one node after the other. -/
def Node.preorders : List Node → List Piece
  | [] => []
  | n :: ns => n.preorder ++ preorders ns

end

mutual

/-- A node is listed in pre-order, but for the ends. -/
theorem filterMap_listing (n : Node) : n.listing.filterMap id = n.preorder := by
  cases n with
  | mk p ns =>
      have hend : (if p.kind = .sectionStart ∨ p.kind = .invertedStart then [none]
          else ([] : List (Option Piece))).filterMap id = [] := by
        split
        · rfl
        · rfl
      rw [Node.listing, Node.preorder, List.filterMap_append, hend, List.append_nil]
      show p :: (Node.listings ns).filterMap id = _
      rw [filterMap_listings ns]

theorem filterMap_listings (ns : List Node) :
    (Node.listings ns).filterMap id = Node.preorders ns := by
  cases ns with
  | nil => rfl
  | cons n ns =>
      rw [Node.listings, Node.preorders, List.filterMap_append, filterMap_listing n,
        filterMap_listings ns]

end

/-- Whether a piece is neither a comment nor the end of a section. -/
def Piece.isKept (p : Piece) : Bool := p.kind ≠ .comment && p.kind ≠ .sectionEnd

theorem filterMap_entries (ps : List Piece) :
    (entries ps).filterMap id = ps.filter Piece.isKept := by
  induction ps with
  | nil => rfl
  | cons p ps ih =>
      by_cases hcomment : p.kind = .comment
      · rw [entries_comment hcomment, ih]
        simp [Piece.isKept, hcomment]
      by_cases hend : p.kind = .sectionEnd
      · rw [entries_end hend]
        simpa [Piece.isKept, hend] using ih
      · rw [entries_piece hcomment hend]
        simpa [Piece.isKept, hcomment, hend] using ih

/-- The tree of a template holds its pieces in order, but for comments and
section ends. -/
theorem preorders_of_tree {ps : List Piece} {ns : List Node} (h : tree ps = .ok ns) :
    Node.preorders ns = ps.filter Piece.isKept := by
  have hlisted : Node.listings ns = entries ps := (tree_agrees_scan ps).2 ns h
  rw [← filterMap_listings, hlisted, filterMap_entries]

-- ============================================================= references

/-- Comments and section ends refer to nothing. -/
theorem isKept_of_reference {p : Piece} {name : String} (h : p.reference? = some name) :
    p.isKept = true := by
  unfold Piece.reference? at h
  unfold Piece.isKept
  split at h
  case h_1 hkind | h_2 hkind | h_3 hkind | h_4 hkind => rw [hkind]; rfl
  all_goals cases h

theorem filterMap_isKept (ps : List Piece) :
    (ps.filter Piece.isKept).filterMap Piece.reference? = ps.filterMap Piece.reference? := by
  rw [List.filterMap_filter]
  congr 1
  funext p
  cases hname : p.reference? with
  | none => exact ite_self none
  | some name => exact if_pos (isKept_of_reference hname)

/-- Whether a piece has a name if it needs one. Text outside tags, comments and
section ends need none. -/
def Piece.Named (p : Piece) : Prop := p.kind = .value ∨ p.isKept = false ∨ p.text ≠ none

/-- What is kept of pieces that have the names they need is text, or refers to
its name. -/
theorem Piece.Named.reference {p : Piece} (h : p.Named) (hkept : p.isKept = true) :
    p.kind = .value ∨ ∃ name, p.text = some name ∧ p.reference? = some name := by
  rcases h with hvalue | hdropped | hname
  · exact .inl hvalue
  · rw [hkept] at hdropped
    cases hdropped
  · obtain ⟨name, htext⟩ := Option.ne_none_iff_exists'.1 hname
    cases hkind : p.kind with
    | value => exact .inl rfl
    | «variable» | escapedVariable | sectionStart | invertedStart =>
        exact .inr ⟨name, htext, by rw [Piece.reference?, hkind, htext]⟩
    | sectionEnd | comment =>
        unfold Piece.isKept at hkept
        rw [hkind] at hkept
        cases hkept

/-- A tag without a name is a comment or a section end. -/
theorem named_of_finish {tag : OpenTag} {wanted : Wanted} {t : Token} {p : Piece}
    (h : tag.finish wanted t = .ok p) : p.Named := by
  unfold OpenTag.finish at h
  split at h
  · cases h
  split at h
  · cases h
    exact .inr (.inl rfl)
  split at h
  · cases h
  · next hnamed =>
    cases h
    by_cases hname : tag.name = none
    · have hend : tag.kind = .sectionEnd := Decidable.not_not.1 fun hkind => hnamed ⟨hname, hkind⟩
      refine .inr (.inl ?_)
      unfold Piece.isKept
      rw [hend]
      rfl
    · exact .inr (.inr hname)

/-- A piece that is complete has the name it needs. -/
theorem named_of_step {mode next : Mode} {t : Token} {p : Piece}
    (h : mode.step t = .ok (next, some p)) : p.Named := by
  unfold Mode.step at h
  split at h
  · split at h
    · cases h
      exact .inl rfl
    · split at h <;> cases h
  · split at h
    · cases h
    · next tag _ =>
      split at h
      · cases hfinish : tag.finish mode.wanted t with
        | error fault => rw [hfinish] at h; cases h
        | ok piece =>
            rw [hfinish] at h
            cases h
            exact named_of_finish hfinish
      · cases hread : tag.read mode.wanted t with
        | error fault => rw [hread] at h; cases h
        | ok result => rw [hread] at h; cases h

theorem named_of_piecesFrom {last : Place} {mode : Mode} {ts : List Token} {ps : List Piece}
    (h : piecesFrom last mode ts = .ok ps) : ∀ p ∈ ps, p.Named := by
  induction ts generalizing mode ps with
  | nil =>
      unfold piecesFrom at h
      split at h
      · cases h
        exact fun p hp => absurd hp List.not_mem_nil
      · cases h
  | cons t ts ih =>
      unfold piecesFrom at h
      split at h
      · cases h
      · exact ih h
      · next next p hstep =>
        cases hrest : piecesFrom last next ts with
        | error fault => rw [hrest] at h; cases h
        | ok rest =>
            rw [hrest] at h
            cases h
            exact List.forall_mem_cons.2 ⟨named_of_step hstep, ih hrest⟩

-- ================================================================== names

/-- What was read of a template: its pieces have the names they need, its tree
is that of the pieces, and the names are those that the pieces refer to. -/
theorem found_of_ofSource {source : String} {tokens : List Token} {found : Parsed}
    (h : Parsed.ofSource source tokens = .ok found) :
    (∀ p ∈ found.pieces, p.Named) ∧ tree found.pieces = .ok found.nodes
      ∧ found.names = Names.firsts (found.pieces.filterMap Piece.reference?) := by
  unfold Parsed.ofSource at h
  cases hpieces : pieces tokens with
  | error fault => rw [hpieces] at h; cases h
  | ok ps =>
      cases htree : tree ps with
      | error fault =>
          rw [hpieces] at h
          change (tree ps >>= _) = _ at h
          rw [htree] at h
          cases h
      | ok ns =>
          rw [hpieces] at h
          change (tree ps >>= _) = _ at h
          rw [htree] at h
          cases h
          exact ⟨named_of_piecesFrom hpieces, htree, Names.distinct_eq_firsts _⟩

theorem exists_ofSource {input : Input} {found : Parsed} (h : Parsed.ofInput input = .ok found) :
    ∃ source tokens, Parsed.ofSource source tokens = .ok found := by
  cases input with
  | tokens tokens => exact ⟨_, tokens, h⟩
  | text text =>
      change (Template.tokens text >>= _) = _ at h
      cases htokens : Template.tokens text with
      | error fault => rw [htokens] at h; cases h
      | ok tokens =>
          rw [htokens] at h
          exact ⟨text, tokens, h⟩

/-- The names that a parser holds when it accepts a template are those of the
nodes of its tree in pre-order, each in the spelling in which it comes first.
Every node is text outside tags, or refers to its name; comments and section
ends are no nodes. -/
theorem names_preorder (p : Parser) (input : Input) (h : (p.parse input).1 = none) :
    let found := (p.parse input).2
    found.names = Names.firsts ((Node.preorders found.nodes).filterMap Piece.reference?)
      ∧ Node.preorders found.nodes
        = found.pieces.filter (fun q => q.kind ≠ .comment ∧ q.kind ≠ .sectionEnd)
      ∧ ∀ q ∈ Node.preorders found.nodes,
        q.kind = .value ∨ ∃ name, q.text = some name ∧ q.reference? = some name := by
  intro found
  have hfound : Parsed.ofInput input = .ok found := by
    have hparse := p.parse_eq input
    show _ = Except.ok (p.parse input).2
    rw [hparse] at h ⊢
    cases hinput : Parsed.ofInput input with
    | error fault => rw [hinput] at h; cases h
    | ok parsed => rfl
  obtain ⟨source, tokens, hsource⟩ := exists_ofSource hfound
  obtain ⟨hnamed, htree, hnames⟩ := found_of_ofSource hsource
  have hpreorder := preorders_of_tree htree
  refine ⟨?_, ?_, ?_⟩
  · rw [hpreorder, filterMap_isKept]
    exact hnames
  · rw [hpreorder]
    exact List.filter_congr fun q _ => (Bool.decide_and ..).symm
  · intro q hq
    rw [hpreorder, List.mem_filter] at hq
    exact (hnamed q hq.1).reference hq.2

/-- A section named `A` that is ended without a name, a variable and a comment in
it, and a variable `a` behind it. -/
def mixedTags : List Token :=
  [⟨.symbol, "\x7b\x7b", ⟨1, 1⟩⟩, ⟨.symbol, "#", ⟨1, 3⟩⟩, ⟨.word, "if", ⟨1, 4⟩⟩,
    ⟨.word, "A", ⟨1, 7⟩⟩, ⟨.symbol, "\x7d\x7d", ⟨1, 8⟩⟩,
    ⟨.symbol, "\x7b\x7b", ⟨1, 10⟩⟩, ⟨.word, "b", ⟨1, 12⟩⟩, ⟨.symbol, "\x7d\x7d", ⟨1, 13⟩⟩,
    ⟨.symbol, "\x7b\x7b", ⟨1, 15⟩⟩, ⟨.symbol, "!", ⟨1, 17⟩⟩, ⟨.word, "c", ⟨1, 18⟩⟩,
    ⟨.symbol, "\x7d\x7d", ⟨1, 19⟩⟩,
    ⟨.symbol, "\x7b\x7b", ⟨1, 21⟩⟩, ⟨.symbol, "/", ⟨1, 23⟩⟩, ⟨.symbol, "\x7d\x7d", ⟨1, 24⟩⟩,
    ⟨.symbol, "\x7b\x7b\x7b", ⟨1, 26⟩⟩, ⟨.word, "a", ⟨1, 29⟩⟩, ⟨.symbol, "\x7d\x7d\x7d", ⟨1, 30⟩⟩]

/-- The pieces of these tags. -/
def mixedPieces : List Piece :=
  [⟨.sectionStart, some "A", ⟨1, 1⟩⟩, ⟨.escapedVariable, some "b", ⟨1, 10⟩⟩,
    ⟨.comment, some "c", ⟨1, 15⟩⟩, ⟨.sectionEnd, none, ⟨1, 21⟩⟩,
    ⟨.variable, some "a", ⟨1, 26⟩⟩]

/-- What is read of them. -/
def mixedTemplate : Parsed where
  source := String.join (mixedTags.map Token.text)
  tokens := mixedTags
  pieces := mixedPieces
  nodes := [.mk ⟨.sectionStart, some "A", ⟨1, 1⟩⟩ [.mk ⟨.escapedVariable, some "b", ⟨1, 10⟩⟩ []],
    .mk ⟨.variable, some "a", ⟨1, 26⟩⟩ []]
  names := ["A", "b"]

theorem names_preorder_mixed :
    let found := (Parser.new.parse (.tokens mixedTags)).2
    (Parser.new.parse (.tokens mixedTags)).1 = none
      ∧ found.names = ["A", "b"]
      ∧ found.names = Names.firsts ((Node.preorders found.nodes).filterMap Piece.reference?) := by
  intro found
  have hpieces : pieces mixedTags = .ok mixedPieces := rfl
  have htree : tree mixedPieces = .ok mixedTemplate.nodes := by
    simp [tree, block, closes, Except.map, maxSections, mixedPieces, mixedTemplate]
  have hfound : Parsed.ofInput (.tokens mixedTags) = .ok mixedTemplate := by
    show (pieces mixedTags >>= _) = _
    rw [hpieces]
    show (tree mixedPieces >>= _) = _
    rw [htree]
    rfl
  have hparse : Parser.new.parse (.tokens mixedTags) = (none, mixedTemplate) := by
    rw [Parser.parse_eq, hfound]
    rfl
  have haccepted : (Parser.new.parse (.tokens mixedTags)).1 = none := by rw [hparse]
  have hnames : (Parser.new.parse (.tokens mixedTags)).2.names = ["A", "b"] := by
    rw [hparse]
    rfl
  exact ⟨haccepted, hnames, (names_preorder .new (.tokens mixedTags) haccepted).1⟩

end Template

end Formula
