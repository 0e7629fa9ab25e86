/-
Calls of functions with whole numbers, as they are written: the name, and
in parentheses the arguments with commas between them. Such a text is read
lexeme by lexeme though hardly a blank is in it (`legible_call`), its
symbols are a call (`sentence_call`), and a function of the standard library
has a name that can be called, with one exception (`callable_standard`).

Main statement: calling a standard function in an expression computes what
the function does, unless its name is claimed by the grammar
(`evaluate_call`).
-/
import Formula.Expr.Calculator
import Formula.Proofs.Expr.Naming
import Formula.Proofs.Expr.Simulation
import Formula.Proofs.Number.Decimal
import Mathlib.Data.List.Nodup

namespace Formula

namespace Expr

-- ========================================================== whole numbers

/-- A whole number as it is written, perhaps with zeros in front, that a
word stands for. -/
structure WholeNumber where
  digits : List Char
  value : Int64
  written : digits ≠ []
  plain : ∀ d ∈ digits, isDigit d = true
  spells : (numberOf digits : Int) = value.toInt

namespace WholeNumber

/-- The decimal text of a word that is not negative. -/
def ofWord (n : Int64) (h : 0 ≤ n) : WholeNumber where
  digits := digitsOf n.toInt.toNat
  value := n
  written := digitsOf_ne_nil _
  plain _ hd := isDigit_of_mem_digitsOf hd
  spells := by
    have hpos : 0 ≤ n.toInt := Int64.le_iff_toInt_le.1 h
    rw [numberOf_digitsOf]
    omega

variable (n : WholeNumber)

def text : String := String.ofList n.digits

def lexeme : Lexeme := .plain .integer n.digits

/-- Its symbol is the constant. -/
theorem classify_lexeme (place : Place) :
    classify (Lexer.Lexeme.token n.lexeme place)
      = .ok (some (.constant, .integer n.value)) := by
  have hvalue : integer? (String.ofList n.digits).toList = some n.value := by
    rw [String.toList_ofList, integer?_digits n.written n.plain, n.spells, Checked.fit_toInt]
  have hnumber : numberValue? .integer (String.ofList n.digits) = some (.integer n.value) := by
    unfold numberValue?
    rw [if_neg nofun, hvalue]
  unfold classify Lexer.Lexeme.token lexeme Lexeme.plain
  dsimp only
  rw [hnumber]

theorem reads {rest : List Char} (hend : EndsNumber rest) : Reads n.lexeme rest :=
  reads_digits n.plain n.written hend

end WholeNumber

-- ================================================================== texts

/-- A call as it is written. -/
def callText (name : String) (ns : List WholeNumber) : String :=
  name ++ "(" ++ ", ".intercalate (ns.map WholeNumber.text) ++ ")"

/-- A mark on its own. -/
def markLexeme (c : Char) : Lexeme := .plain .symbol [c]

/-- The lexemes of arguments, with a blank behind each comma. -/
def argumentLexemes : List WholeNumber → List (Lexeme × List Char)
  | [] => []
  | [n] => [(n.lexeme, [])]
  | n :: m :: ns => (n.lexeme, []) :: (markLexeme ',', [' ']) :: argumentLexemes (m :: ns)

/-- The lexemes of a call. -/
def callLexemes (name : String) (ns : List WholeNumber) : List (Lexeme × List Char) :=
  (.plain .word name.toList, []) :: (markLexeme '(', [])
    :: (argumentLexemes ns ++ [(markLexeme ')', [])])

theorem spaced_append (ls ms : List (Lexeme × List Char)) :
    spaced (ls ++ ms) = spaced ls ++ spaced ms := by
  induction ls with
  | nil => rfl
  | cons entry ls ih =>
      obtain ⟨l, gap⟩ := entry
      rw [List.cons_append, spaced, spaced, ih, List.append_assoc, List.append_assoc]

theorem spaced_arguments (ns : List WholeNumber) :
    spaced (argumentLexemes ns) = (", ".intercalate (ns.map WholeNumber.text)).toList := by
  induction ns using argumentLexemes.induct with
  | case1 => rfl
  | case2 n => simp [argumentLexemes, spaced, WholeNumber.text, WholeNumber.lexeme, Lexeme.plain]
  | case3 n m ns ih =>
      rw [argumentLexemes, spaced, spaced, ih]
      simp [String.intercalate_cons_cons, WholeNumber.text, WholeNumber.lexeme, Lexeme.plain,
        markLexeme]

/-- A call is written as its lexemes are. -/
theorem spaced_call (name : String) (ns : List WholeNumber) :
    String.ofList (spaced (callLexemes name ns)) = callText name ns := by
  have hlist : spaced (callLexemes name ns) = (callText name ns).toList := by
    simp [callLexemes, callText, spaced, spaced_append, spaced_arguments, markLexeme,
      Lexeme.plain]
  rw [hlist, String.ofList_toList]

-- ================================================================ reading

/-- A mark that nothing longer begins with is read before anything. -/
theorem reads_single {c : Char} (hmark : IsMark c)
    (hpairs : ∀ pair ∈ pairs, pair.head? ≠ some c) (hslash : c ≠ '/') (hpoint : c ≠ '.')
    (rest : List Char) : Reads (markLexeme c) rest := by
  refine reads_mark hmark fun d _ => ⟨?_, fun h => absurd h hslash, fun h => absurd h hpoint⟩
  intro hmem
  exact hpairs _ hmem rfl

theorem reads_punctuation {c : Char} (hc : c ∈ ['(', ',', ')']) (rest : List Char) :
    Reads (markLexeme c) rest := by
  simp only [List.mem_cons, List.not_mem_nil, or_false] at hc
  have hmark : IsMark c := by
    obtain rfl | rfl | rfl := hc <;> unfold IsMark <;> decide
  obtain rfl | rfl | rfl := hc
  · exact reads_single hmark (by simp [pairs]) (by decide) (by decide) rest
  · exact reads_single hmark (by simp [pairs]) (by decide) (by decide) rest
  · exact reads_single hmark (by simp [pairs]) (by decide) (by decide) rest

/-- Numbers end before commas and before the closing parenthesis. -/
theorem legible_arguments (ns : List WholeNumber) :
    Legible (argumentLexemes ns ++ [(markLexeme ')', [])]) := by
  have hclosing : Legible [(markLexeme ')', [])] :=
    ⟨nofun, reads_punctuation (by decide) _, .nil, trivial⟩
  induction ns using argumentLexemes.induct with
  | case1 => exact hclosing
  | case2 n =>
      have hend : EndsNumber (spaced [(markLexeme ')', [])]) := by
        intro c hc
        cases hc
        decide
      exact ⟨nofun, n.reads hend, .nil, hclosing⟩
  | case3 n m ns ih =>
      have hend : EndsNumber
          (spaced ((markLexeme ',', [' '])
            :: (argumentLexemes (m :: ns) ++ [(markLexeme ')', [])]))) := by
        intro c hc
        cases hc
        decide
      exact ⟨nofun, n.reads hend, .nil, nofun, reads_punctuation (by decide) _,
        .blank (by decide) .nil, ih⟩

/-- Whether a text is a word. -/
def isWord (text : String) : Bool :=
  match text.toList with
  | [] => false
  | c :: cs => Lexer.isInitial c && cs.all fun d => Lexer.isInitial d || isDigit d

theorem reads_isWord {name : String} (h : isWord name = true) {rest : List Char}
    (hend : EndsWord rest) : Reads (.plain .word name.toList) rest := by
  unfold isWord at h
  cases hname : name.toList with
  | nil =>
      rw [hname] at h
      cases h
  | cons c cs =>
      rw [hname] at h
      rw [Bool.and_eq_true, List.all_eq_true] at h
      exact reads_word h.1 (fun d hd => Bool.or_eq_true _ _ ▸ h.2 d hd) hend

theorem legible_call {name : String} (h : isWord name = true) (ns : List WholeNumber) :
    Legible (callLexemes name ns) := by
  have hend : EndsWord
      (spaced ((markLexeme '(', []) :: (argumentLexemes ns ++ [(markLexeme ')', [])]))) := by
    intro c hc
    cases hc
    decide
  exact ⟨nofun, reads_isWord h hend, .nil, nofun, reads_punctuation (by decide) _, .nil,
    legible_arguments ns⟩

theorem tokens_call {name : String} (h : isWord name = true) (ns : List WholeNumber) :
    Lexer.expression.tokens (callText name ns) = .ok (placed [] (callLexemes name ns)) := by
  rw [← spaced_call, tokens_legible (legible_call h ns)]

-- ================================================================ symbols

/-- The part and value of a symbol. -/
def Symbol.content (s : Symbol) : Part × Value := (s.part, s.value)

/-- The symbols of tokens that all have one: the first stands where the
first token does. -/
theorem symbols_of_contents {ts : List Token} {contents : List (Part × Value)}
    (h : ts.map classify = contents.map fun content => .ok (some content)) :
    ∃ ss, symbols ts = .ok ss ∧ ss.map Symbol.content = contents
      ∧ ss.head?.map Symbol.place = ts.head?.map Token.place := by
  induction ts generalizing contents with
  | nil =>
      cases contents with
      | nil => exact ⟨[], rfl, rfl, rfl⟩
      | cons content contents => cases h
  | cons t ts ih =>
      cases contents with
      | nil => cases h
      | cons content contents =>
          injection h with hfirst hmore
          obtain ⟨ss, hss, hcontents, -⟩ := ih hmore
          refine ⟨⟨content.1, content.2, t.place⟩ :: ss, ?_, ?_, rfl⟩
          · rw [symbols, hfirst]
            dsimp only
            rw [hss]
            rfl
          · rw [List.map_cons, hcontents]
            rfl

/-- The contents of the symbols of arguments. -/
def argumentContents : List WholeNumber → List (Part × Value)
  | [] => []
  | [n] => [(.constant, .integer n.value)]
  | n :: m :: ns =>
    (.constant, .integer n.value) :: (.comma, .string ",") :: argumentContents (m :: ns)

/-- Behind the opening parenthesis. -/
def closedContents (ns : List WholeNumber) : List (Part × Value) :=
  argumentContents ns ++ [(.rightParen, .string ")")]

/-- The contents of the symbols of a call. -/
def callContents (name : String) (ns : List WholeNumber) : List (Part × Value) :=
  (.variable, .string name) :: (.leftParen, .string "(") :: closedContents ns

theorem classify_mark {c : Char} {part : Part} (h : reserved? (String.ofList [c]) = some part)
    (place : Place) :
    classify (Lexer.Lexeme.token (markLexeme c) place)
      = .ok (some (part, .string (String.ofList [c]))) := by
  unfold classify Lexer.Lexeme.token markLexeme Lexeme.plain
  dsimp only
  rw [h]

theorem classify_arguments (ns : List WholeNumber) (front : List Char) :
    (placed front (argumentLexemes ns ++ [(markLexeme ')', [])])).map classify
      = (closedContents ns).map fun content => .ok (some content) := by
  have hclosing := classify_mark
    (show reserved? (String.ofList [')']) = some .rightParen by decide)
  unfold closedContents
  induction ns using argumentLexemes.induct generalizing front with
  | case1 =>
      rw [argumentLexemes, List.nil_append, placed, List.map_cons, hclosing]
      rfl
  | case2 n =>
      rw [argumentLexemes, List.singleton_append, placed, placed, List.map_cons, List.map_cons,
        n.classify_lexeme, hclosing]
      rfl
  | case3 n m ns ih =>
      have hcomma := classify_mark
        (show reserved? (String.ofList [',']) = some .comma by decide)
      rw [argumentLexemes, List.cons_append, List.cons_append, placed, placed, List.map_cons,
        List.map_cons, n.classify_lexeme, hcomma, ih]
      rfl

theorem classify_call {name : String} (hname : capitals name ∉ claimed)
    (ns : List WholeNumber) :
    (placed [] (callLexemes name ns)).map classify
      = (callContents name ns).map fun content => .ok (some content) := by
  have hword : classify (Lexer.Lexeme.token (.plain .word name.toList) (.after []))
      = .ok (some (.variable, .string name)) := by
    show Except.ok (some (ofWord (String.ofList name.toList))) = _
    rw [String.ofList_toList, ofWord_eq_variable_iff.2 hname]
  have hopening := classify_mark
    (show reserved? (String.ofList ['(']) = some .leftParen by decide)
  rw [callLexemes, placed, placed, List.map_cons, List.map_cons, hword, hopening,
    classify_arguments]
  rfl

-- ================================================================== trees

/-- Whether a tree is the constant that a number stands for. -/
def Stands (n : WholeNumber) (t : Tree) : Prop := ∃ place, t = .constant (.integer n.value) place

theorem derives_constant {n : WholeNumber} {s : Symbol}
    (h : s.content = (.constant, .integer n.value)) :
    Derives (.chain .logical) [s] (.constant (.integer n.value) s.place) := by
  injection h with hpart hvalue
  rw [← hvalue]
  exact (Derives.constant hpart).sentence

/-- The symbols of arguments are a list of constants. -/
theorem listed_arguments {n : WholeNumber} {ns : List WholeNumber} {ss : List Symbol}
    (h : ss.map Symbol.content = argumentContents (n :: ns)) :
    ∃ items : List (List Symbol × Tree), Listed (items.map Prod.fst) ss
      ∧ (∀ i ∈ items, Derives (.chain .logical) i.1 i.2)
      ∧ List.Forall₂ Stands (n :: ns) (items.map Prod.snd) := by
  induction ns generalizing n ss with
  | nil =>
      obtain ⟨s, rest, rfl, hs, hrest⟩ := List.map_eq_cons_iff.1 h
      rw [List.map_eq_nil_iff.1 hrest]
      refine ⟨[([s], .constant (.integer n.value) s.place)], .one [s], ?_,
        .cons ⟨s.place, rfl⟩ .nil⟩
      rw [List.forall_mem_singleton]
      exact derives_constant hs
  | cons m ns ih =>
      obtain ⟨s, behind, rfl, hs, hbehind⟩ := List.map_eq_cons_iff.1 h
      obtain ⟨comma, rest, rfl, hcomma, hrest⟩ := List.map_eq_cons_iff.1 hbehind
      obtain ⟨items, hlisted, hitems, hstands⟩ := ih hrest
      refine ⟨([s], .constant (.integer n.value) s.place) :: items,
        .more (congrArg Prod.fst hcomma) hlisted, ?_, .cons ⟨s.place, rfl⟩ hstands⟩
      rw [List.forall_mem_cons]
      exact ⟨derives_constant hs, hitems⟩

/-- The symbols of a call are one, of constants. -/
theorem sentence_call {name : String} {ns : List WholeNumber} {ss : List Symbol}
    (h : ss.map Symbol.content = callContents name ns) :
    ∃ args place, Sentence ss (.call name args place) ∧ List.Forall₂ Stands ns args
      ∧ ss.head?.map Symbol.place = some place := by
  obtain ⟨s, behind, rfl, hs, hbehind⟩ := List.map_eq_cons_iff.1 h
  obtain ⟨opening, rest, rfl, hopening, hrest⟩ := List.map_eq_cons_iff.1 hbehind
  obtain ⟨inner, last, rfl, hinner, hlast⟩ := List.map_eq_append_iff.1 hrest
  obtain ⟨closing, none, rfl, hclosing, hnone⟩ := List.map_eq_cons_iff.1 hlast
  rw [List.map_eq_nil_iff.1 hnone]
  injection hs with hpart hvalue
  have hname : name = s.value.text := by rw [hvalue, Value.text_string]
  cases ns with
  | nil =>
      rw [List.map_eq_nil_iff.1 hinner, hname]
      have hthunk : Derives .indexed [s, opening, closing] (.call s.value.text [] s.place) :=
        .thunk hpart (congrArg Prod.fst hopening) (congrArg Prod.fst hclosing)
      exact ⟨[], s.place, hthunk.sentence, .nil, rfl⟩
  | cons n ns =>
      obtain ⟨items, hlisted, hitems, hstands⟩ := listed_arguments hinner
      have hcall : Derives .indexed (s :: opening :: (inner ++ [closing]))
          (.call s.value.text (items.map Prod.snd) s.place) :=
        .call hpart (congrArg Prod.fst hopening) hlisted hitems (congrArg Prod.fst hclosing)
      rw [hname]
      exact ⟨_, s.place, hcall.sentence, hstands, rfl⟩

section

variable {ns : List WholeNumber} {args : List Tree} (h : List.Forall₂ Stands ns args)

include h

theorem values_constants (ctx : Context) :
    Tree.values ctx args = .ok (ns.map fun n => .integer n.value) := by
  induction h with
  | nil => rfl
  | cons hstands _ ih =>
      obtain ⟨place, rfl⟩ := hstands
      rw [Tree.values, ih]
      rfl

theorem depthAll_constants : Tree.depthAll args ≤ 1 := by
  rw [Tree.depthAll_le_iff]
  induction h with
  | nil => simp
  | cons hstands _ ih =>
      obtain ⟨place, rfl⟩ := hstands
      rw [List.forall_mem_cons]
      exact ⟨Nat.le_refl 1, ih⟩

theorem length_codeAll_constants : (Tree.codeAll args).length = ns.length := by
  induction h with
  | nil => rfl
  | cons hstands _ ih =>
      obtain ⟨place, rfl⟩ := hstands
      rw [Tree.codeAll, List.length_append, ih, List.length_cons]
      exact Nat.add_comm 1 _

end

-- ============================================================== functions

/-- A function is found by its name if no other one has the name. -/
theorem find?_of_nodup {lib : Library} (hnames : (lib.names.map asciiFold).Nodup) {r : Routine}
    (hr : r ∈ lib.routines) : lib.find? r.name = some r := by
  cases hfind : lib.find? r.name with
  | none =>
      have hnone := List.find?_eq_none.1 hfind r hr
      exact absurd (sameName_refl r.name) hnone
  | some found =>
      have hsame := sameName_iff.1 (Library.sameName_of_find? hfind)
      unfold Library.names at hnames
      rw [List.map_map] at hnames
      exact congrArg some (List.inj_on_of_nodup_map hnames (Library.mem_of_find? hfind) hr hsame)

/-- The standard functions have different names. -/
theorem nodup_standard : (Library.standard.names.map asciiFold).Nodup := by decide

/-- The name of a standard function is a word that the grammar does not
claim, with one exception. -/
theorem callable_standard :
    ∀ name ∈ Library.standard.names, name ≠ "Null" →
      isWord name = true ∧ capitals name ∉ claimed := by decide

-- ============================================================ evaluation

/-- A call of a word that is not claimed compiles to a call of constants. -/
theorem ofText_call {name : String} (hword : isWord name = true)
    (hname : capitals name ∉ claimed) (ns : List WholeNumber) :
    ∃ compiled args, Compiled.ofText (callText name ns) = .ok compiled
      ∧ compiled.code = (Tree.call name args ⟨1, 1⟩).code
      ∧ List.Forall₂ Stands ns args := by
  obtain ⟨ss, hss, hcontents, hplace⟩ := symbols_of_contents (classify_call hname ns)
  obtain ⟨args, place, hsentence, hstands, hfirst⟩ := sentence_call hcontents
  have hstart : place = ⟨1, 1⟩ := by
    rw [hplace] at hfirst
    exact (Option.some.inj hfirst).symm
  rw [hstart] at hsentence
  have hdepth : (Tree.call name args ⟨1, 1⟩).depth ≤ maxDepth := by
    have hargs := depthAll_constants hstands
    have hmax : maxDepth = 64 := rfl
    rw [Tree.depth, hmax]
    omega
  have htree : tree ss = .ok (.call name args ⟨1, 1⟩) := tree_eq_ok_iff.2 ⟨hsentence, hdepth⟩
  let code := (Tree.call name args ⟨1, 1⟩).code
  refine ⟨⟨callText name ns, placed [] (callLexemes name ns), ss, code, variableNames code⟩,
    args, ?_, rfl, hstands⟩
  rw [Compiled.ofText_of_tokens (tokens_call hword ns), Compiled.ofSource_eq_ok_iff]
  exact ⟨ss, _, hss, htree, rfl⟩

/-- A calculator evaluates what it has taken over with its own functions and
operations. -/
theorem evaluate_accept (c : Calculator) (compiled : Compiled) :
    ∃ valueOf?, (c.accept (.ok compiled)).2.evaluate
      = evaluate ⟨valueOf?, c.library.function?, c.operations⟩ compiled.code := ⟨_, rfl⟩

theorem call_of_function? {ctx : Context} {name : String}
    {f : List Value → Operations → Outcome} (h : ctx.functionOf? name = some f)
    (args : List Value) : ctx.call name args = f args ctx.operations := by
  unfold Context.call
  rw [h]

/-- A calculator can call every function that it finds by a word that is not
claimed. -/
theorem evaluate_callText (c : Calculator) {name : String} (hword : isWord name = true)
    (hname : capitals name ∉ claimed) {f : List Value → Operations → Outcome}
    (hf : c.library.function? name = some f) {ns : List WholeNumber}
    (hlength : ns.length + 2 < 2 ^ 63) :
    (c.setExpression (callText name ns)).1 = none
      ∧ (c.setExpression (callText name ns)).2.evaluate
        = located ⟨1, 1⟩ (f (ns.map fun n => .integer n.value) c.operations) := by
  obtain ⟨compiled, args, hcompiled, hcode, hstands⟩ := ofText_call hword hname ns
  have hset : c.setExpression (callText name ns) = c.accept (.ok compiled) :=
    congrArg c.accept hcompiled
  have hcodeLength : (Tree.call name args ⟨1, 1⟩).code.length < 2 ^ 63 := by
    rw [Tree.code, List.length_append, length_codeAll_constants hstands]
    exact hlength
  obtain ⟨valueOf?, hevaluate⟩ := evaluate_accept c compiled
  rw [hset]
  refine ⟨rfl, ?_⟩
  rw [hevaluate, hcode, evaluate_of_run (run_code _ .empty hcodeLength), Tree.value,
    values_constants hstands]
  exact congrArg (located ⟨1, 1⟩) (call_of_function? hf _)

/-- Calling a standard function in an expression, with any operations,
gives the value or the fault that the function gives for the same arguments;
the fault has the place of the call. The names that this holds of are all
but one, which the grammar has claimed. -/
theorem evaluate_call {r : Routine} (hr : r ∈ Library.standard.routines) (hname : r.name ≠ "Null")
    (ops : Operations) {ns : List WholeNumber} (hlength : ns.length + 2 < 2 ^ 63) :
    let attempt := { Calculator.new with operations := ops }.setExpression (callText r.name ns)
    attempt.1 = none
      ∧ attempt.2.evaluate
        = located ⟨1, 1⟩ (r.run (ns.map fun n => .integer n.value) ops) := by
  obtain ⟨hword, hunclaimed⟩ := callable_standard r.name (List.mem_map_of_mem hr) hname
  have hfind : Library.standard.function? r.name = some r.run := by
    unfold Library.function?
    rw [find?_of_nodup nodup_standard hr]
    rfl
  exact evaluate_callText { Calculator.new with operations := ops } hword hunclaimed hfind hlength

/-- `Choose(2, 10, 07)` is seven. -/
theorem evaluate_call_choose :
    let attempt := { Calculator.new with operations := Coercion.lenient.operations }.setExpression
      "Choose(2, 10, 07)"
    attempt.1 = none ∧ attempt.2.evaluate = .ok (.integer 7) := by
  let ns : List WholeNumber :=
    [.ofWord 2 (by decide), .ofWord 10 (by decide),
      ⟨['0', '7'], 7, nofun, by simp [isDigit], by decide⟩]
  have hchoose : Routine.choose ∈ Library.standard.routines := by simp [Library.standard]
  have hname : Routine.choose.name ≠ "Null" := by decide
  have hlength : ns.length + 2 < 2 ^ 63 := by decide
  have htext : callText Routine.choose.name ns = "Choose(2, 10, 07)" := by decide
  have hrun : located ⟨1, 1⟩ (Routine.choose.run (ns.map fun n => .integer n.value)
      Coercion.lenient.operations) = .ok (.integer 7) := rfl
  have hcall := evaluate_call hchoose hname Coercion.lenient.operations hlength
  rw [htext, hrun] at hcall
  exact hcall

/-- The function `Null` gives null, but no expression calls it: its name is
taken for the constant, which nothing in parentheses can follow. -/
theorem evaluate_call_null :
    Routine.constant "Null" .null ∈ Library.standard.routines
      ∧ (Routine.constant "Null" .null).run [] Coercion.lenient.operations = .ok .null
      ∧ (Calculator.new.setExpression "Null()").1 = some (.atPlace (.leftover "(") ⟨1, 5⟩) := by
  have hmem : Routine.constant "Null" .null ∈ Library.standard.routines := by
    simp [Library.standard]
  have htokens : Lexer.expression.tokens "Null()"
      = .ok [⟨.word, "Null", ⟨1, 1⟩⟩, ⟨.symbol, "(", ⟨1, 5⟩⟩, ⟨.symbol, ")", ⟨1, 6⟩⟩] := by
    have hcall := tokens_call (show isWord "Null" = true by decide) []
    have htext : callText "Null" [] = "Null()" := by decide
    have hplaced : placed [] (callLexemes "Null" [])
        = [⟨.word, "Null", ⟨1, 1⟩⟩, ⟨.symbol, "(", ⟨1, 5⟩⟩, ⟨.symbol, ")", ⟨1, 6⟩⟩] := by decide
    rw [htext, hplaced] at hcall
    exact hcall
  have hsymbols : symbols
      [⟨.word, "Null", ⟨1, 1⟩⟩, ⟨.symbol, "(", ⟨1, 5⟩⟩, ⟨.symbol, ")", ⟨1, 6⟩⟩]
      = .ok [⟨.null, .string "Null", ⟨1, 1⟩⟩, ⟨.leftParen, .string "(", ⟨1, 5⟩⟩,
        ⟨.rightParen, .string ")", ⟨1, 6⟩⟩] := rfl
  have htree : tree [⟨.null, .string "Null", ⟨1, 1⟩⟩, ⟨.leftParen, .string "(", ⟨1, 5⟩⟩,
      ⟨.rightParen, .string ")", ⟨1, 6⟩⟩] = .error (.atPlace (.leftover "(") ⟨1, 5⟩) := by
    cbv
  have hsource : Compiled.ofSource "Null()"
      [⟨.word, "Null", ⟨1, 1⟩⟩, ⟨.symbol, "(", ⟨1, 5⟩⟩, ⟨.symbol, ")", ⟨1, 6⟩⟩]
      = .error (.atPlace (.leftover "(") ⟨1, 5⟩) := by
    unfold Compiled.ofSource
    rw [hsymbols]
    show (tree _ >>= _) = _
    rw [htree]
    rfl
  have hset : Calculator.new.setExpression "Null()"
      = Calculator.new.accept (.error (.atPlace (.leftover "(") ⟨1, 5⟩)) :=
    congrArg Calculator.new.accept ((Compiled.ofText_of_tokens htokens).trans hsource)
  rw [hset]
  exact ⟨hmem, rfl, rfl⟩

end Expr

end Formula
