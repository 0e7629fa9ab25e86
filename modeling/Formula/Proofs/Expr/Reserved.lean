/-
Which words are reserved. A bare word is read as it stands (`tokens_word`), and
is looked up by its capitals. The capitals of a word are never those of a mark
(`capitals_mem_reservedWords`).

Main statement: a word is an operator, null or a truth value exactly if it is a
reserved word in any case of its ASCII letters, where the dotless i counts as an
i and the long s as an s; every other word is the name that it spells
(`classify_word_iff`). So there are words outside ASCII that are no names
(`classify_long_s`), though names themselves are told apart by such letters.
-/
import Formula.Proofs.Expr.Calls
import Formula.Proofs.Text.Capitals

namespace Formula

namespace Expr

-- ============================================================= vocabulary

/-- The words that name nothing. -/
def reservedWords : List String :=
  ["AND", "OR", "XOR", "NOT", "IS", "IN", "NULL", "LIKE", "TRUE", "FALSE"]

/-- The parts that reserved words play, truth values apart. -/
def wordParts : List Part := [.and, .or, .xor, .not, .is, .isIn, .null, .like]

/-- Whether a word was taken for an operator, for null or for a truth value. -/
def IsReserved (content : Part × Value) : Prop :=
  content.1 ∈ wordParts ∨ ∃ b, content = (.constant, .boolean b)

-- ============================================================= bare words

/-- A bare word is one token, the word itself. -/
theorem tokens_word {w : String} (h : isWord w = true) :
    Lexer.expression.tokens w = .ok [⟨.word, w, ⟨1, 1⟩⟩] := by
  have hlegible : Legible [(.plain .word w.toList, [])] :=
    ⟨nofun, reads_isWord h nofun, .nil, trivial⟩
  have htokens := tokens_legible hlegible
  simp only [spaced, Lexeme.plain, List.append_nil, String.ofList_toList] at htokens
  rw [htokens, placed, Lexer.Lexeme.token]
  simp only [String.ofList_toList]
  rfl

/-- What begins a word does so in any case and in ASCII. -/
theorem isInitial_toLower {c : Char} (h : Lexer.isInitial c = true) :
    Lexer.isInitial (asciiTwin c).toLower = true := by
  by_cases hc : c.toNat < 128
  · exact forall_ascii
      (P := fun c => Lexer.isInitial c = true → Lexer.isInitial (asciiTwin c).toLower = true)
      (by decide) hc h
  unfold asciiTwin
  split
  · decide
  · split
    · decide
    · rwa [toLower_of_not_ascii (by omega)]

-- ========================================================= reserved words

/-- What the grammar claims is in capitals, in ASCII and without pairs. -/
theorem claimed_capitals : ∀ r ∈ claimed, capitals r = r ∧ unligated r.toList = true := by decide

/-- Apart from the reserved words, these are marks. -/
theorem claimed_marks : ∀ r ∈ claimed, r ∈ reservedWords
    ∨ r.toList.head?.any (fun c => !Lexer.isInitial c.toLower) = true := by decide

theorem reservedWords_claimed : ∀ r ∈ reservedWords, r ∈ claimed := by decide

theorem reservedWords_parts : ∀ r ∈ reservedWords, r = "TRUE" ∨ r = "FALSE"
    ∨ ∃ part ∈ wordParts, (reserved.find? fun e => e.1 == r).map Prod.snd = some part := by decide

section

variable {w : String}

/-- The capitals of a word are not a mark. -/
theorem capitals_mem_reservedWords (h : isWord w = true) (hclaimed : capitals w ∈ claimed) :
    capitals w ∈ reservedWords := by
  rcases claimed_marks _ hclaimed with hword | hany
  · exact hword
  obtain ⟨m, hm, hmark⟩ := (Option.any_eq_true _ _).1 hany
  rw [Bool.not_eq_true'] at hmark
  obtain ⟨hcapitals, hpairs⟩ := claimed_capitals _ hclaimed
  have hsame := sameName_iff.1 ((capitals_eq_iff hcapitals hpairs).1 rfl)
  have hletters : (w.toList.map asciiTwin).map Char.toLower
      = (capitals w).toList.map Char.toLower := by
    have hlists := congrArg String.toList hsame
    simpa only [asciiFold, asciiTwins, String.toList_ofList] using hlists
  unfold isWord at h
  cases hw : w.toList with
  | nil =>
      rw [hw] at h
      cases h
  | cons c cs =>
      rw [hw] at h
      rw [Bool.and_eq_true] at h
      have hfirst := congrArg List.head? hletters
      rw [hw, List.map_cons, List.map_cons, List.head?_cons, List.head?_map, hm] at hfirst
      have hc : (asciiTwin c).toLower = m.toLower := Option.some.inj hfirst
      have hinitial := isInitial_toLower h.1
      rw [hc, hmark] at hinitial
      cases hinitial

/-- A word has the capitals of a reserved word exactly if it differs from it in
case only. -/
theorem capitals_mem_iff : capitals w ∈ reservedWords
    ↔ ∃ r ∈ reservedWords, sameName (asciiTwins w) r = true := by
  constructor
  · intro h
    obtain ⟨hcapitals, hpairs⟩ := claimed_capitals _ (reservedWords_claimed _ h)
    exact ⟨_, h, (capitals_eq_iff hcapitals hpairs).1 rfl⟩
  · rintro ⟨r, hr, hsame⟩
    obtain ⟨hcapitals, hpairs⟩ := claimed_capitals r (reservedWords_claimed r hr)
    rwa [(capitals_eq_iff hcapitals hpairs).2 hsame]

theorem isReserved_of_capitals (h : capitals w ∈ reservedWords) : IsReserved (ofWord w) := by
  unfold ofWord truth?
  by_cases htrue : capitals w = "TRUE"
  · rw [if_pos htrue]
    exact .inr ⟨true, rfl⟩
  by_cases hfalse : capitals w = "FALSE"
  · rw [if_neg htrue, if_pos hfalse]
    exact .inr ⟨false, rfl⟩
  rcases reservedWords_parts _ h with h | h | ⟨part, hpart, hfind⟩
  · exact absurd h htrue
  · exact absurd h hfalse
  · rw [if_neg htrue, if_neg hfalse]
    dsimp only
    rw [reserved?, hfind]
    exact .inl hpart

theorem ofWord_of_not_reserved (h : isWord w = true) (hother : capitals w ∉ reservedWords) :
    ofWord w = (.variable, .string w) := by
  rw [ofWord_eq_variable_iff]
  intro hclaimed
  exact hother (capitals_mem_reservedWords h hclaimed)

theorem isReserved_ofWord_iff (h : isWord w = true) :
    IsReserved (ofWord w) ↔ capitals w ∈ reservedWords := by
  constructor
  · intro hreserved
    by_cases hword : capitals w ∈ reservedWords
    · exact hword
    · rw [ofWord_of_not_reserved h hword] at hreserved
      have hvariable : Part.variable ∉ wordParts := by decide
      rcases hreserved with hpart | ⟨b, hb⟩
      · exact absurd hpart hvariable
      · cases hb
  · exact isReserved_of_capitals

theorem asciiTwins_eq (h : ∀ c ∈ w.toList, c ≠ 'ı' ∧ c ≠ 'ſ') : asciiTwins w = w := by
  have hsame : w.toList.map asciiTwin = w.toList.map id := by
    apply List.map_congr_left
    intro c hc
    rw [asciiTwin, if_neg (h c hc).1, if_neg (h c hc).2, id]
  rw [asciiTwins, hsame, List.map_id, String.ofList_toList]

-- ============================================================ main result

/-- A bare word is one token, and is an operator, null or a truth value exactly
if it is one of the reserved words in any case, the dotless i counting as an i
and the long s as an s; else it is the name that it spells. Without these two
letters, only the case of ASCII letters is ignored. -/
theorem classify_word_iff (h : isWord w = true) :
    Lexer.expression.tokens w = .ok [⟨.word, w, ⟨1, 1⟩⟩]
      ∧ ∃ content, (∀ place, classify ⟨.word, w, place⟩ = .ok (some content))
        ∧ (IsReserved content ↔ ∃ r ∈ reservedWords, sameName (asciiTwins w) r = true)
        ∧ (¬IsReserved content → content = (.variable, .string w))
        ∧ ((∀ c ∈ w.toList, c ≠ 'ı' ∧ c ≠ 'ſ') →
          (IsReserved content ↔ ∃ r ∈ reservedWords, sameName w r = true)) := by
  have hreserved : IsReserved (ofWord w)
      ↔ ∃ r ∈ reservedWords, sameName (asciiTwins w) r = true := by
    rw [isReserved_ofWord_iff h, capitals_mem_iff]
  refine ⟨tokens_word h, ofWord w, fun place => rfl, hreserved, ?_, ?_⟩
  · intro hother
    apply ofWord_of_not_reserved h
    intro hword
    exact hother (isReserved_of_capitals hword)
  · intro hletters
    rw [hreserved, asciiTwins_eq hletters]

end

/-- `lıke` with a dotless i, which is an operator, and `größe`, which is a
name. -/
theorem classify_word_iff_dotless :
    (∃ content, (∀ place, classify ⟨.word, "lıke", place⟩ = .ok (some content))
        ∧ IsReserved content)
      ∧ ∀ place, classify ⟨.word, "größe", place⟩ = .ok (some (.variable, .string "größe")) := by
  obtain ⟨-, content, hclassify, hlike, -⟩ := classify_word_iff (w := "lıke") (by decide)
  obtain ⟨-, other, hother, hname, hvariable, -⟩ := classify_word_iff (w := "größe") (by decide)
  refine ⟨⟨content, hclassify, hlike.2 ⟨"LIKE", by decide, by decide⟩⟩, fun place => ?_⟩
  have hnone : ¬IsReserved other := by
    rw [hname]
    decide
  rw [hother place, hvariable hnone]

/-- `falſe` with a long s is no reserved word in any case of its ASCII letters,
and is a truth value all the same, not a name. -/
theorem classify_long_s :
    isWord "falſe" = true
      ∧ (∀ r ∈ reservedWords, sameName "falſe" r = false)
      ∧ Compiled.ofText "falſe" = .ok ⟨"falſe", [⟨.word, "falſe", ⟨1, 1⟩⟩],
        [⟨.constant, .boolean false, ⟨1, 1⟩⟩], [⟨.constant (.boolean false), ⟨1, 1⟩⟩], []⟩ := by
  have hword : isWord "falſe" = true := by decide
  have hatom : Derives .indexed [⟨.constant, .boolean false, ⟨1, 1⟩⟩]
      (.constant (.boolean false) ⟨1, 1⟩) := .constant rfl
  have htree := tree_eq_ok_iff.2 ⟨hatom.sentence, by decide⟩
  exact ⟨hword, by decide, (Compiled.ofText_of_tokens (tokens_word hword)).trans
    (Compiled.ofSource_eq_ok_iff.2 ⟨_, _, symbols_word "falſe" ⟨1, 1⟩, htree, rfl⟩)⟩

end Expr

end Formula
