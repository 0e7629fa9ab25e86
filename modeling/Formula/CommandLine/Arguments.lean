/-
The arguments of the program. The first one that is no option names the
command; options and operands of the command follow in any order, and after
two hyphens everything is an operand. An option may be given once; its
value is the next argument or attached to it. What cannot be understood is
a usage error, whatever else is right.
-/
import Formula.CommandLine.Help

namespace Formula

namespace CommandLine

/-- What the arguments ask for. -/
inductive Request where
  | evaluate (expression : String) (bindings : Option String) (lenient pretty : Bool)
  | compile (expression : String)
  | template (text : Option String) (pretty : Bool)
  | version
  | help (topic : Topic)
  deriving DecidableEq, Repr

-- ================================================================ options

/-- What options mean. -/
inductive Meaning where
  | bindings
  | lenient
  | pretty
  | help
  deriving DecidableEq, Repr

/-- The options of a command, by their long name and by their letter. -/
structure Options where
  long : String → Option Meaning
  short : Char → Option Meaning

/-- The options of an evaluation. -/
def evaluateOptions : Options where
  long
    | "vars" => some .bindings
    | "unsafe" => some .lenient
    | "pretty" => some .pretty
    | "help" => some .help
    | _ => none
  short
    | 'v' => some .bindings
    | 'p' => some .pretty
    | 'h' => some .help
    | _ => none

/-- The options of a listing. -/
def compileOptions : Options where
  long
    | "help" => some .help
    | _ => none
  short
    | 'h' => some .help
    | _ => none

/-- The options of a template. -/
def templateOptions : Options where
  long
    | "pretty" => some .pretty
    | "help" => some .help
    | _ => none
  short
    | 'p' => some .pretty
    | 'h' => some .help
    | _ => none

-- ================================================================== words

/-- What has been given so far. -/
structure Given where
  operand : Option String
  bindings : Option String
  lenient : Bool
  pretty : Bool
  help : Bool
  deriving DecidableEq, Repr

/-- Nothing given. -/
def Given.nothing : Given := ⟨none, none, false, false, false⟩

/-- Sets an option that takes no value, unless it is set already. -/
def Given.flag (g : Given) : Meaning → Option Given
  | .lenient => if g.lenient then none else some { g with lenient := true }
  | .pretty => if g.pretty then none else some { g with pretty := true }
  | .help => some { g with help := true }
  | .bindings => none

/-- Sets the variables, unless they are set already. -/
def Given.withBindings (g : Given) (value : String) : Option Given :=
  if g.bindings.isSome then none else some { g with bindings := some value }

/-- Sets the operand, unless it is set already. -/
def Given.withOperand (g : Given) (value : String) : Option Given :=
  if g.operand.isSome then none else some { g with operand := some value }

/-- A word that is no option: not beginning with a hyphen, or nothing but
one. -/
def isPlain (word : String) : Bool :=
  match word.toList with
  | '-' :: _ :: _ => false
  | _ => true

/-- Letters of options in one word. An option with a value takes the rest
of the word, less an equals sign in front, or else waits for the next
word. The flag says whether it waits. -/
def letters (options : Options) (g : Given) : List Char → Option (Given × Bool)
  | [] => some (g, false)
  | c :: r =>
    match options.short c with
    | none => none
    | some .bindings =>
      match r with
      | [] => if g.bindings.isSome then none else some (g, true)
      | '=' :: value => (g.withBindings (String.ofList value)).map (·, false)
      | value => (g.withBindings (String.ofList value)).map (·, false)
    | some .help => some ({ g with help := true }, false)
    | some meaning =>
      match g.flag meaning with
      | none => none
      | some g => letters options g r

/-- A word with a long option; a value may be attached with an equals
sign. -/
def long (options : Options) (g : Given) (body : List Char) : Option (Given × Bool) :=
  let name := String.ofList (body.takeWhile (· != '='))
  let attached := body.dropWhile (· != '=')
  match options.long name, attached with
  | none, _ => none
  | some .bindings, [] => if g.bindings.isSome then none else some (g, true)
  | some .bindings, _ :: value => (g.withBindings (String.ofList value)).map (·, false)
  | some meaning, [] => (g.flag meaning).map (·, false)
  | some _, _ :: _ => none

/-- The words of a command. `waiting` says that the last option still lacks
its value. Help ends the reading. -/
def words (options : Options) (g : Given) (waiting : Bool) : List String → Option Given
  | [] => if waiting then none else some g
  | w :: ws =>
    if g.help then some g
    else if waiting then
      if isPlain w then
        match g.withBindings w with
        | none => none
        | some g => words options g false ws
      else none
    else if w = "--" then ws.foldlM Given.withOperand g
    else
      match w.toList with
      | '-' :: '-' :: body =>
        match long options g body with
        | none => none
        | some (g, waiting) => words options g waiting ws
      | '-' :: c :: r =>
        match letters options g (c :: r) with
        | none => none
        | some (g, waiting) => words options g waiting ws
      | _ =>
        match g.withOperand w with
        | none => none
        | some g => words options g false ws

-- =============================================================== requests

/-- What the words after the name of a command ask for. -/
def command (name : String) (ws : List String) : Option Request :=
  match name with
  | "eval" => do
    let g ← words evaluateOptions .nothing false ws
    if g.help then return .help .evaluate
    let expression ← g.operand
    return .evaluate expression g.bindings g.lenient g.pretty
  | "compile" => do
    let g ← words compileOptions .nothing false ws
    if g.help then return .help .compile
    let expression ← g.operand
    return .compile expression
  | "template" => do
    let g ← words templateOptions .nothing false ws
    if g.help then return .help .template
    return .template g.operand g.pretty
  | "help" => (Topic.ofCommands? ws).map .help
  | _ => none

/-- What the arguments ask for; nothing if that cannot be understood. -/
def request : List String → Option Request
  | [] => none
  | w :: ws =>
    match w.toList with
    | '-' :: '-' :: _ =>
      if w = "--version" then some .version
      else if w = "--help" then some (.help .program)
      else none
    | '-' :: 'V' :: _ => some .version
    | '-' :: 'h' :: _ => some (.help .program)
    | _ => command w ws

end CommandLine

end Formula
