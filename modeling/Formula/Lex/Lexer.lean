/-
A lexer sends each character to a role, and the rule that fills the role
reads the token that begins there. A character without a role, or whose
rule takes nothing, is a token of its own kind, unknown. So every step
takes at least one character, which is what the recursion on the characters
left rests on.

Options drop tokens of some kinds, give all numbers one kind, decode quoted
texts and join neighbouring blanks.
-/
import Formula.Lex.Rule
import Formula.Text.Cursor

namespace Formula

namespace Lexer

/-- The roles of rules. -/
inductive Role where
  | comment
  | number
  | quote
  | symbol
  | whitespace
  | word
  deriving DecidableEq, Repr

/-- What is done with tokens once they are read. -/
structure Options where
  skipUnknown : Bool
  skipWhitespaces : Bool
  skipComments : Bool
  skipEof : Bool
  mergeWhitespaces : Bool
  unifyNumbers : Bool
  decodeStrings : Bool
  deriving DecidableEq, Repr

/-- The options that leave all tokens as they are. -/
def Options.none : Options := ⟨false, false, false, false, false, false, false⟩

/-- Whether tokens of a kind are dropped. The end of the text is not
dropped but ends the tokens. -/
def Options.skips (o : Options) : Token.Kind → Bool
  | .unknown => o.skipUnknown
  | .whitespace => o.skipWhitespaces
  | .comment => o.skipComments
  | _ => false

end Lexer

/-- Roles of characters, rules for roles, and options. A role is named for
the rule that usually fills it. Any rule may fill the roles of comments and
numbers; the other roles ask for what their rules can do besides reading. -/
structure Lexer where
  options : Lexer.Options
  roles : CharMap Lexer.Role
  comments : Option Rule
  numbers : Option Rule
  quotes : Option Rule.Quotes
  symbols : Option (Symbols Token.Kind)
  blanks : Option Rule.Runs
  letters : Option Rule.Runs

namespace Lexer

/-- The lexer without rules. -/
def empty : Lexer :=
  ⟨.none, .empty, .none, .none, .none, .none, .none, .none⟩

-- ========================================================== one lexeme

/-- Reads a symbol, or one character as a symbol where no rule for symbols
is set. -/
def symbol (lx : Lexer) (cs : List Char) : Lexeme := Rule.readSymbol (lx.symbols.getD .leaf) cs

/-- The rule that fills a role. -/
def rule? (lx : Lexer) : Role → Option Rule
  | .comment => lx.comments
  | .number => lx.numbers
  | .quote => lx.quotes.map .quotes
  | .symbol => lx.symbols.map .symbols
  | .whitespace => lx.blanks.map .runs
  | .word => lx.letters.map .runs

/-- Reads with the rule that fills a role; nothing if none does. A rule
that finds nothing of its own hands over to the symbols. -/
def readAs (lx : Lexer) (role : Role) (cs : List Char) : Option (Except Cause Lexeme) :=
  (lx.rule? role).map fun rule => (rule.read cs).map (·.getD (lx.symbol cs))

/-- A lexeme, unless it is empty: then the next character is unknown. -/
def orUnknown (c : Char) (l : Lexeme) : Lexeme :=
  if l.source = [] then .plain .unknown [c] else l

/-- The lexeme at the front of a text that is not empty. -/
def lexeme (lx : Lexer) (c : Char) (r : List Char) : Except Cause Lexeme :=
  match (lx.roles.find? c).bind fun role => lx.readAs role (c :: r) with
  | some result => result.map (orUnknown c)
  | none => .ok (.plain .unknown [c])

/-- A lexeme takes at least one character. -/
theorem source_ne_nil {lx : Lexer} {c : Char} {r : List Char} {l : Lexeme}
    (h : lx.lexeme c r = .ok l) : l.source ≠ [] := by
  have hu (l : Lexeme) : (orUnknown c l).source ≠ [] := by
    unfold orUnknown
    split
    · simp [Lexeme.plain]
    · assumption
  unfold lexeme at h
  split at h
  · next result _ =>
    cases result with
    | error e => cases h
    | ok l' =>
      cases h
      exact hu l'
  · cases h
    simp [Lexeme.plain]

-- ============================================================ one token

/-- The token of a lexeme. -/
def Lexeme.token (l : Lexeme) (place : Place) : Token := ⟨l.kind, String.ofList l.text, place⟩

/-- The end of the text as a token. -/
def endToken (place : Place) : Token := ⟨.eof, "", place⟩

/-- Reads one token, before any option applies, and says where the cursor
stands after it. A failure leaves the cursor at the end of the text. -/
def read (lx : Lexer) (cur : Cursor) : Except Fault Token × Cursor :=
  match cur.rest with
  | [] => (.ok (endToken cur.place), cur)
  | c :: r =>
    match lx.lexeme c r with
    | .ok l => (.ok (Lexeme.token l cur.place), cur.skip l.source.length)
    | .error cause => (.error (.atPlace cause cur.place), cur.toEnd)

/-- Reads one token with the rule of a role, wherever the cursor stands;
nothing if no rule fills the role. -/
def readWith (lx : Lexer) (role : Role) (cur : Cursor) : Except Fault (Option Token) × Cursor :=
  match lx.readAs role cur.rest with
  | none => (.ok none, cur)
  | some (.ok l) => (.ok (some (Lexeme.token l cur.place)), cur.skip l.source.length)
  | some (.error cause) => (.error (.atPlace cause cur.place), cur.toEnd)

/-- Reads one token at a cursor: the longest registered symbol or, where there
is none, one character. -/
def symbolAt (known : Symbols Token.Kind) (cur : Cursor) : Token × Cursor :=
  match known.longestMatch cur with
  | (some (text, kind), after) => (⟨kind, String.ofList text, cur.place⟩, after)
  | (none, after) => (⟨.symbol, String.ofList after.read.1.toList, cur.place⟩, after.read.2)

/-- Reads one token as a symbol. -/
def readSymbol (lx : Lexer) (cur : Cursor) : Token × Cursor :=
  symbolAt (lx.symbols.getD .leaf) cur

/-- A token with the options that change tokens applied. A quoted text is
decoded by the quote it begins with. -/
def finish (lx : Lexer) (t : Token) : Token :=
  match t.kind with
  | .integer | .float | .hexDecimal =>
    if lx.options.unifyNumbers then { t with kind := .number } else t
  | .quoted =>
    match lx.options.decodeStrings && lx.quotes.isSome, t.text.toList with
    | true, q :: r => { t with text := String.ofList (Quoted.decode q (q :: r)) }
    | _, _ => t
  | _ => t

/-- Whatever is read before the end of the text takes characters. -/
theorem read_shorter {lx : Lexer} {cur after : Cursor} {t : Token}
    (h : lx.read cur = (.ok t, after)) (ht : t.kind ≠ .eof) :
    after.rest.length < cur.rest.length := by
  unfold read at h
  split at h
  · cases h
    exact absurd rfl ht
  · next c r hr =>
    split at h
    · next l hl =>
      cases h
      exact Cursor.rest_skip_lt (List.length_pos_iff.2 (source_ne_nil hl)) (by simp [hr])
    · cases h

/-- The end of the text is never dropped. -/
theorem ne_eof_of_skips {o : Options} {k : Token.Kind} (h : o.skips k = true) : k ≠ .eof := by
  rintro rfl
  cases h

/-- Reads the next token that is not dropped; nothing at the end of the
text if the end is not wanted. -/
def next (lx : Lexer) (cur : Cursor) : Except Fault (Option Token) × Cursor :=
  match _h : lx.read cur with
  | (.error fault, after) => (.error fault, after)
  | (.ok t, after) =>
    if t.kind = .eof then (.ok (if lx.options.skipEof then none else some t), after)
    else if _hs : lx.options.skips t.kind then lx.next after
    else (.ok (some (lx.finish t)), after)
termination_by cur.rest.length
decreasing_by exact read_shorter _h (ne_eof_of_skips _hs)

-- =========================================================== all tokens

/-- Reading on takes characters until the end of the text is reached. -/
theorem next_shorter {lx : Lexer} {cur after : Cursor} {t : Token}
    (h : lx.next cur = (.ok (some t), after)) (ht : t.kind ≠ .eof) :
    after.rest.length < cur.rest.length := by
  fun_induction next lx cur with
  | case1 => cases h
  | case2 cur u mid hr hu =>
    split at h <;> cases h
    exact absurd hu ht
  | case3 cur u mid hr hu hs ih => exact Nat.lt_trans (ih h) (read_shorter hr hu)
  | case4 cur u mid hr hu hs =>
    cases h
    exact read_shorter hr hu

/-- Adds a token behind others, of which the last one stands first. A blank
behind a blank may be joined to it. -/
def push (lx : Lexer) (before : List Token) (t : Token) : List Token :=
  match before with
  | u :: us =>
    if lx.options.mergeWhitespaces ∧ t.kind = .whitespace ∧ u.kind = .whitespace then
      { u with text := u.text ++ t.text } :: us
    else t :: u :: us
  | [] => [t]

/-- The tokens from a cursor on behind those before it, of which the last one
stands first. -/
def collectOnto (lx : Lexer) (before : List Token) (cur : Cursor) : Except Fault (List Token) :=
  match _h : lx.next cur with
  | (.error fault, _) => .error fault
  | (.ok none, _) => .ok before.reverse
  | (.ok (some t), after) =>
    if _ht : t.kind = .eof then .ok (lx.push before t).reverse
    else lx.collectOnto (lx.push before t) after
termination_by cur.rest.length
decreasing_by exact next_shorter _h _ht

/-- The tokens of a text. -/
def tokens (lx : Lexer) (text : String) : Except Fault (List Token) :=
  lx.collectOnto [] (.start text)

end Lexer

end Formula
