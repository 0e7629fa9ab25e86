/-
The program as a function: arguments and the text on standard input give an
exit code and the texts on standard output and standard error.
-/
import Formula.CommandLine.Arguments
import Formula.CommandLine.Commands

namespace Formula

namespace CommandLine

/-- What a run of the program comes to. -/
structure Report where
  exit : Nat
  out : String
  err : String
  deriving DecidableEq, Repr

/-- A run that ends well. -/
def Report.success (out : String) : Report := ⟨0, out ++ "\n", ""⟩

/-- A run that fails. -/
def Report.failure (failure : Failure) : Report := ⟨1, "", failure.text ++ "\n"⟩

/-- A JSON result as a report. -/
def report (pretty : Bool) : Except Failure Json → Report
  | .ok j => .success (if pretty then j.pretty else j.compact)
  | .error failure => .failure failure

/-- Whether a request reads standard input. -/
def Request.readsInput : Request → Bool
  | .evaluate _ bindings _ _ => bindings.isNone
  | .template text _ => text.isNone
  | _ => false

/-- Answers a request. Variables that are not given are read from standard
input, unless that is blank; so is a template that is not given. -/
def answer (input : String) : Request → Report
  | .evaluate expression bindings lenient pretty =>
    let bindings := bindings.or (if isBlankText input then none else some input)
    report pretty (evaluate expression bindings (if lenient then .lenient else .strict))
  | .compile expression =>
    match compile expression with
    | .ok listing =>
      .success (String.intercalate " " listing.code ++ "\nvariables: "
        ++ String.intercalate ", " listing.names)
    | .error failure => .failure failure
  | .template text pretty => report pretty (template (text.getD input))
  | .version => .success "stamen 0.1.0"
  | .help topic => .success topic.text

/-- Runs the program. -/
def run (args : List String) (input : String) : Report :=
  match request args with
  | some request => answer input request
  | none => ⟨2, "", Topic.program.text ++ "\n"⟩

end CommandLine

end Formula
