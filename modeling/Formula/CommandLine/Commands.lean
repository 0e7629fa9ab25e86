/-
The commands: evaluate an expression with variables from a JSON object,
list a compiled expression, and show the tree of a template as JSON.
-/
import Formula.Expr.Calculator
import Formula.Json.Printer
import Formula.Json.Reader
import Formula.Template.Parsed

namespace Formula

namespace CommandLine

-- =============================================================== failures

/-- Why a command failed. -/
inductive Failure where
  /-- The expression or template is at fault. -/
  | fault (f : Fault)
  | invalidJson
  /-- The JSON text of the variables is no object; the text, trimmed. -/
  | notAnObject (text : String)
  deriving DecidableEq

/-- What is reported about a failure. -/
def Failure.text : Failure → String
  | .fault f => f.text
  | .invalidJson => "Invalid JSON: the text is not a JSON value"
  | .notAnObject text => "Variables must be a JSON object, got " ++ text

/-- A result whose fault is a failure of the command. -/
def orFail {α : Type} : Except Fault α → Except Failure α
  | .ok a => .ok a
  | .error f => .error (.fault f)

-- ============================================================== evaluation

/-- Sets the members of a JSON object as variables, one after another as some reader
gives them. What is no object is refused before anything is set. -/
def loadVariablesWith (read? : Json.Reader) (json : String) : EStateM Failure Scope Unit :=
  match read? json with
  | none => throw .invalidJson
  | some (.object fields) => fields.forM fun m => modify fun s => s.set m.1 m.2.toValue
  | some _ => throw (.notAnObject (trimText json))

/-- Sets the members of a JSON object as variables, in order of their names. -/
def loadVariables : String → EStateM Failure Scope Unit := loadVariablesWith Json.parse?

/-- A scope with variables from a JSON object. -/
def readVariables (json : String) (scope : Scope) : Except Failure Scope :=
  match loadVariables json scope with
  | .ok () scope => .ok scope
  | .error failure _ => .error failure

/-- The value of an expression as JSON. The expression is compiled before
the variables are looked at. -/
def evaluate (expression : String) (bindings : Option String) (coercion : Coercion) :
    Except Failure Json := do
  let c ← orFail (Calculator.ofExpression expression)
  let scope ← match bindings with
    | some json => readVariables json c.scope
    | none => .ok c.scope
  let v ← orFail { c with scope := scope, operations := coercion.operations }.evaluate
  .ok (.ofValue v)

-- ================================================================= listing

/-- A compiled expression in words. -/
structure Listing where
  code : List String
  names : List String

/-- An instruction in a listing: a constant as JSON, a variable by its
name, a function by its name and empty parentheses, and anything else by
what it is. -/
def describe (i : Expr.Instruction) : String :=
  match i.step with
  | .constant v => (Json.ofValue v).compact
  | .variable name => name
  | .function name => name ++ "()"
  | _ => i.name

/-- The listing of an expression. -/
def compile (expression : String) : Except Failure Listing := do
  let c ← orFail (Expr.Compiled.ofText expression)
  .ok ⟨c.code.map describe, c.names⟩

-- =============================================================== templates

/-- A name or text that may be missing. -/
def textOrNull : Option String → Json
  | some s => .string s
  | none => .null

mutual

/-- A node as JSON. Its children are left out when there are none. -/
def nodeJson : Template.Node → Json
  | .mk p children =>
    let inner : List (String × Json) := match children with
      | [] => []
      | n :: ns => [("tokens", .array (nodeJson n :: nodesJson ns))]
    .object (Fields.ofList ([
      ("type", .string p.kind.name),
      ("value", textOrNull p.text),
      ("line", .integer p.place.line),
      ("column", .integer p.place.column)] ++ inner))

/-- Nodes as JSON. -/
def nodesJson : List Template.Node → List Json
  | [] => []
  | n :: ns => nodeJson n :: nodesJson ns

end

/-- The tree of a template and the names it refers to, as JSON. -/
def template (text : String) : Except Failure Json := do
  let t ← orFail (Template.Parsed.ofText text)
  .ok (.object (Fields.ofList [
    ("tokens", .array (nodesJson t.nodes)),
    ("variables", .array (t.names.map .string))]))

end CommandLine

end Formula
