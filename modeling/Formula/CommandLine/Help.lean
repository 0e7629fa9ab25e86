/-
What the program says about itself: a text for the whole program and one for
each command. All have the same form: what it is for, how it is called, and
tables of commands, arguments and options.
-/

namespace Formula

namespace CommandLine

/-- What help is asked about. -/
inductive Topic where
  | program
  | evaluate
  | compile
  | template
  | help
  deriving DecidableEq, Repr

namespace Topic

/-- The topic of a list of commands; nothing if there is no such command, or
more than one. -/
def ofCommands? : List String → Option Topic
  | [] => some .program
  | ["eval"] => some .evaluate
  | ["compile"] => some .compile
  | ["template"] => some .template
  | ["help"] => some .help
  | _ => none

/-- What it is for. -/
def purpose : Topic → String
  | .program => "Stamen - compile and evaluate expressions and Mustache templates"
  | .evaluate => "Evaluate an expression and print the result as JSON"
  | .compile => "Print the postfix stream and variables of an expression"
  | .template => "Print the parsed tree of a Mustache template as JSON"
  | .help => "Print this message or the help of the given subcommand(s)"

/-- How it is called. -/
def call : Topic → String
  | .program => "stamen <COMMAND>"
  | .evaluate => "stamen eval [OPTIONS] <EXPRESSION>"
  | .compile => "stamen compile <EXPRESSION>"
  | .template => "stamen template [OPTIONS] [TEXT]"
  | .help => "stamen help [COMMAND]..."

/-- The tables, each with its title and with the names and meanings of its
rows. -/
def tables : Topic → List (String × List (String × String))
  | .program => [
      ("Commands", [
        ("eval", evaluate.purpose), ("compile", compile.purpose),
        ("template", template.purpose), ("help", help.purpose)]),
      ("Options", [("-h, --help", "Print help"), ("-V, --version", "Print version")])]
  | .evaluate => [
      ("Arguments", [("<EXPRESSION>", "The expression to evaluate")]),
      ("Options", [
        ("-v, --vars <VARS>", "Variables as a JSON object (reads from stdin if not provided)"),
        ("    --unsafe", "Convert mismatched operand types instead of failing"),
        ("-p, --pretty", "Pretty-print the output"), ("-h, --help", "Print help")])]
  | .compile => [
      ("Arguments", [("<EXPRESSION>", "The expression to compile")]),
      ("Options", [("-h, --help", "Print help")])]
  | .template => [
      ("Arguments", [("[TEXT]", "The template text (reads from stdin if not provided)")]),
      ("Options", [("-p, --pretty", "Pretty-print the output"), ("-h, --help", "Print help")])]
  | .help => [("Arguments", [("[COMMAND]...", "Print help for the subcommand(s)")])]

end Topic

/-- A table: its rows are indented, and their meanings stand in one
column. -/
def table (title : String) (rows : List (String × String)) : String :=
  let width := rows.foldl (fun n row => max n row.1.length) 0
  let line := fun (row : String × String) =>
    "\n  " ++ row.1 ++ String.ofList (List.replicate (width + 2 - row.1.length) ' ') ++ row.2
  title ++ ":" ++ String.join (rows.map line)

/-- The text on a topic. -/
def Topic.text (topic : Topic) : String :=
  String.intercalate "\n\n"
    (topic.purpose :: ("Usage: " ++ topic.call) :: topic.tables.map fun (title, rows) =>
      table title rows)

end CommandLine

end Formula
