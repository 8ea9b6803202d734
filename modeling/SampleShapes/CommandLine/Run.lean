/-
**Running the command line.**

An invocation reads its inputs one after the other, makes the declarations or the graph, and writes
them to a file or to the standard output. Warnings go to the standard error.

* `Invocation.run`: a run on any host;
* `RunError.context`, `RunError.reason`: the wording of a failure, and what lies behind it.
-/

import SampleShapes.CommandLine.Arguments
import SampleShapes.CommandLine.Documents
import SampleShapes.CommandLine.Glob
import SampleShapes.Declare
import SampleShapes.Json.Printer

namespace SampleShapes.CommandLine

/-! ### Failures -/

/-- Why a run failed. -/
inductive RunError where
  /-- An input cannot be read. -/
  | unreadable (input : String) (error : HostError)
  /-- An input gives no documents. -/
  | document (error : DocumentError)
  /-- A pattern of paths is malformed. -/
  | badPattern (pattern : String)
  /-- A pattern of paths matches nothing. -/
  | unmatched (pattern : String)
  /-- There are no declarations. -/
  | undeclarable (failure : Failure)
  /-- A directory for the output cannot be made. -/
  | uncreatable (path : String) (error : HostError)
  /-- The output cannot be written. -/
  | unwritable (path : String) (error : HostError)

/-- What lies behind a failed run. -/
inductive Reason where
  /-- A text is no JSON text. -/
  | json
  /-- A pattern is malformed. -/
  | pattern
  /-- The host refused an operation. -/
  | host (error : HostError)

namespace RunError

/-- What failed. -/
def context : RunError → String
  | unreadable input _ => "failed to read " ++ input
  | document (.notJson input) => "failed to parse JSON source file (" ++ input ++ ")"
  | document (.lineNotJson input line) => "failed to parse " ++ input ++ ":" ++ toString line
  | document (.unselected input pointer) =>
    "JSON pointer " ++ pointer ++ " matches nothing in " ++ input
  | document .none => "no input documents"
  | badPattern pattern => "invalid glob pattern: " ++ pattern
  | unmatched pattern => "glob pattern matched no files: " ++ pattern
  | undeclarable failure => failure.message
  | uncreatable path _ => "failed to create " ++ path
  | unwritable path _ => "failed to write " ++ path

/-- What lies behind it, if it is not the whole story. -/
def reason : RunError → Option Reason
  | unreadable _ error => some (.host error)
  | document (.notJson _) => some .json
  | document (.lineNotJson _ _) => some .json
  | badPattern _ => some .pattern
  | uncreatable _ error => some (.host error)
  | unwritable _ error => some (.host error)
  | document (.unselected _ _) => none
  | document .none => none
  | unmatched _ => none
  | undeclarable _ => none

/-- A failure with its reason, where `wording` words the reason. -/
def message (wording : Reason → String) (error : RunError) : String :=
  match error.reason with
  | some reason => error.context ++ ": " ++ wording reason
  | none => error.context

end RunError

/-! ### Runs -/

/-- What a run prints, and why it failed, if it did. -/
structure Outcome where
  /-- The standard output. -/
  printed : String
  /-- The standard error. -/
  reported : String
  /-- Why the run failed. -/
  error : Option RunError

namespace Invocation

variable {m : Type → Type} [Monad m]

/-- The paths that an input stands for. -/
def paths (host : Host m) (input : String) : ExceptT RunError m (List String) := do
  if Glob.isPattern input then
    match ← (Glob.expand host input : m (Option (List String))) with
    | none => throw (.badPattern input)
    | some [] => throw (.unmatched input)
    | some paths => return paths
  else return [input]

/-- The text behind a path; a hyphen stands for the standard input. -/
def text (host : Host m) (path : String) : ExceptT RunError m String := do
  match ← (if path = "-" then host.readInput else host.readFile path) with
  | .ok text => return text
  | .error error => throw (.unreadable path error)

/-- The sample that the inputs make together. -/
def sample (invocation : Invocation) (host : Host m) : ExceptT RunError m Json := do
  let paths ← invocation.inputs.mapM (paths host)
  let documents ← paths.flatten.mapM fun path => do
    let text ← text host path
    match Documents.ofInput invocation.lineByLine invocation.pointer path text with
    | .ok documents => return documents
    | .error error => throw (.document error)
  match Documents.combine documents.flatten with
  | .ok sample => return sample
  | .error error => throw (.document error)

/-- The text that a sample gives, and the warnings about it. -/
def result (invocation : Invocation) (sample : Json) : Except Failure (String × List Warning) :=
  match invocation.command with
  | .ts => do
    let resolution ← declarations invocation.options sample
    return (String.intercalate "\n" (resolution.render invocation.options.style),
      resolution.warnings)
  | .decls => do
    let resolution ← declarations invocation.options sample
    return (resolution.toJson.pretty, resolution.warnings)
  | .shapes => do
    let graph ← ShapeGraph.infer invocation.options sample
    return (graph.view.pretty, [])

/-- Write a text to the file at a path, and make the directories on the way to it. -/
def write (host : Host m) (path text : String) : m (Option RunError) := do
  let above := Path.parent path
  match ← host.makeDirectories (Path.ancestors above.length above) with
  | .error error => return some (.uncreatable above error)
  | .ok () =>
    match ← host.writeFile path text with
    | .error error => return some (.unwritable path error)
    | .ok () => return none

/-- Run an invocation. -/
def run (invocation : Invocation) (host : Host m) : m Outcome := do
  match ← (invocation.sample host).run with
  | .error error => return ⟨"", "", some error⟩
  | .ok sample =>
    match invocation.result sample with
    | .error failure => return ⟨"", "", some (.undeclarable failure)⟩
    | .ok (text, warnings) =>
      let reported := String.join <|
        warnings.map fun warning => "warning: " ++ warning.message ++ "\n"
      match invocation.output with
      | none => return ⟨text ++ "\n", reported, none⟩
      | some path => return ⟨"", reported, ← write host path text⟩

end Invocation

end SampleShapes.CommandLine
