/-
Regular expressions, as far as patterns need them: characters that stand for
themselves, the dot and runs of it, and the two ends of a text. A character
with a meaning of its own stands for itself behind a backslash.

An engine is given by what it does: it escapes texts, and makes a search out
of an expression. The one here finds an expression in time proportional to
its length times the length of the text: it computes for all the ends of the
text at once whether the expression leads on from there, one part at a time
from the last to the first, so that no choice of a run is ever tried twice.
-/
import Formula.Text.Case

namespace Formula.Regex

-- ============================================================== notation

/-- A part of an expression. -/
inductive Part where
  /-- The beginning of the text. -/
  | start
  /-- The end of the text. -/
  | finish
  | letter (a : Char)
  /-- Any one character. -/
  | dot
  /-- Any run of characters, possibly empty. -/
  | dots
  deriving DecidableEq, Repr

/-- An expression: its parts one behind the other. -/
abbrev Expression := List Part

/-- The characters with a meaning of their own, in one place or another. -/
def special : List Char :=
  ['\\', '.', '+', '*', '?', '(', ')', '|', '[', ']', '\x7b', '\x7d', '^', '$', '#', '&', '-',
    '~']

/-- A text written as an expression for itself. -/
def escape (text : List Char) : List Char :=
  text.flatMap fun c => if c ∈ special then ['\\', c] else [c]

/-- What a character writes that neither a backslash stands before nor a sign
of repetition behind. -/
def part? (c : Char) : Option Part :=
  match c with
  | '^' => some .start
  | '$' => some .finish
  | '.' => some .dot
  | c => if c ∈ special then none else some (.letter c)

/-- The expression that a text writes, if it is one of this notation. -/
def read : List Char → Option Expression
  | [] => some []
  | '.' :: '*' :: r => (read r).map (.dots :: ·)
  | '\\' :: c :: r => if c ∈ special then (read r).map (.letter c :: ·) else none
  | c :: r => (part? c).bind fun part => (read r).map (part :: ·)

-- ================================================================ engines

/-- How an expression is to be understood. -/
structure Options where
  /-- Letters stand for themselves in either case. -/
  ignoreCase : Bool
  /-- The dot stands for a line feed, too. -/
  dotAll : Bool

/-- A library of regular expressions. -/
structure Engine where
  /-- A text written as an expression for itself. -/
  escape : List Char → List Char
  /-- Whether an expression is found in texts, or why it is refused. -/
  build : Options → List Char → Except String (List Char → Bool)

namespace Options

/-- Whether a letter of an expression takes a character, for some notion of
letters that are the same but for their case. -/
def letterTakes (opts : Options) (same : Char → Char → Bool) (a c : Char) : Bool :=
  if opts.ignoreCase then same a c else a == c

/-- Whether the dot takes a character. -/
def dotTakes (opts : Options) (c : Char) : Bool := opts.dotAll || c != '\n'

end Options

-- ============================================================= the search

/-- One character in front of what leads on from the ends that are marked.
There is a mark for each end of `text`, the whole text first. -/
def one (takes : Char → Bool) : (text : List Char) → (marks : List Bool) → List Bool
  | c :: t, _ :: marks => (takes c && marks.headD false) :: one takes t marks
  | _, _ => [false]

/-- A run of characters in front of what leads on from the marked ends. -/
def run (takes : Char → Bool) : (text : List Char) → (marks : List Bool) → List Bool
  | c :: t, here :: marks =>
    let longer := run takes t marks
    (here || (takes c && longer.headD false)) :: longer
  | _, marks => marks

/-- For each end of `text`, the whole text first and the empty end last,
whether an expression leads on from there. -/
def leads (opts : Options) (text : List Char) : Expression → List Bool
  | [] => true :: text.map fun _ => true
  | .start :: e => (leads opts text e).headD false :: text.map fun _ => false
  | .finish :: e => (text.map fun _ => false) ++ [(leads opts text e).getLastD false]
  | .letter a :: e => one (opts.letterTakes sameLetter a) text (leads opts text e)
  | .dot :: e => one opts.dotTakes text (leads opts text e)
  | .dots :: e => run opts.dotTakes text (leads opts text e)

/-- Whether an expression is found anywhere in a text. -/
def finds (opts : Options) (e : Expression) (text : List Char) : Bool :=
  (leads opts text e).any id

/-- The engine for this notation. -/
def standard : Engine where
  escape := escape
  build opts text :=
    match read text with
    | some e => .ok (finds opts e)
    | none => .error "unknown notation"

end Formula.Regex
