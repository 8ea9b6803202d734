/-
**Usage.**

What is said to someone who asks for help, or whose arguments ask for no run, and the status that
the program ends with: 0 after a run or an answer to a question, 1 after a run that failed, and 2
after misuse.
-/

import SampleShapes.CommandLine.Run

namespace SampleShapes.CommandLine

/-- The name and version of the program. -/
def versionText : String := "sample-shapes 0.1.0"

/-- How the program is called. -/
def usage : String := String.intercalate "\n" [
  "infer structure from JSON samples and emit TypeScript declarations",
  "",
  "Usage: sample-shapes COMMAND -i INPUT... [OPTIONS]",
  "",
  "Commands:",
  "  ts      print interfaces, or classes",
  "  decls   print the resolved declarations as JSON",
  "  shapes  print the shape graph as JSON",
  "  help    print this text",
  "",
  "Options:",
  "  -i, --input INPUT...     paths, patterns of paths, or - for the standard input",
  "      --ndjson             read one document from every line that is not blank",
  "      --json-pointer PTR   select a part of each document",
  "      --root-name NAME     name of the root declaration [RootObject]",
  "      --detect-dates       take date strings for dates",
  "      --max-depth DEPTH    most levels of nesting [256]",
  "      --references POLICY  unresolved references: drop, keep or error [drop]",
  "      --classes            (ts) emit classes instead of interfaces",
  "  -o, --out FILE           write to a file instead of the standard output",
  "  -h, --help               print this text",
  "  -V, --version            print the version (before a command)"]

namespace Misuse

/-- Why arguments ask for no run. -/
def message : Misuse → String
  | help => usage
  | version => versionText
  | noCommand => usage
  | unknownCommand word => "unrecognized command '" ++ word ++ "'"
  | unknownArgument word => "unexpected argument '" ++ word ++ "'"
  | missingValue option => "a value is required for '--" ++ option ++ "'"
  | unexpectedValue option => "no value is allowed for '--" ++ option ++ "'"
  | unfitValue option value =>
    "invalid value '" ++ value ++ "' for '--" ++ option ++ "'"
      ++ (if option = Flag.references.name then ": " ++ ReferencePolicy.unknownMessage value
        else "")
  | repeated option => "'--" ++ option ++ "' cannot be used more than once"
  | missingOption option => "'--" ++ option ++ "' is required"

/-- A question, which is answered on the standard output. -/
def isQuestion : Misuse → Bool
  | help | version => true
  | _ => false

/-- The outcome of arguments that ask for no run, with the status to end with. -/
def answer (misuse : Misuse) : String × String × Nat :=
  if misuse.isQuestion then (misuse.message ++ "\n", "", 0)
  else ("", (if misuse = noCommand then "" else "error: ") ++ misuse.message ++ "\n", 2)

end Misuse

namespace Outcome

/-- The wording of what lies behind a failed run. -/
def reasonText : Reason → String
  | .json => "malformed JSON"
  | .pattern => "malformed pattern"
  | .host error => error.message

/-- What a run says on either output, with the status to end with. -/
def answer (outcome : Outcome) : String × String × Nat :=
  match outcome.error with
  | none => (outcome.printed, outcome.reported, 0)
  | some error =>
    (outcome.printed, outcome.reported ++ "error: " ++ error.message reasonText ++ "\n", 1)

end Outcome

end SampleShapes.CommandLine
