/-
**Paths.**

A path is a text of parts with slashes between them. Empty parts and single dots say nothing,
except for a dot at the start.
-/

namespace SampleShapes.CommandLine.Path

/-- The parts between the slashes, empty ones included. -/
def parts (path : String) : List String := path.splitOn "/"

/-- The path to `name` inside of the directory at `path`. -/
def join (path name : String) : String :=
  if path.endsWith "/" then path ++ name else path ++ "/" ++ name

/-- The path leads to the current directory without naming any other. -/
def isCurrent (path : String) : Bool :=
  path.startsWith "." && (parts path).all fun part => part = "" || part = "."

/-- The path without the slashes at its end. -/
def dropSlashes (path : String) : String :=
  String.ofList (path.toList.reverse.dropWhile (· = '/')).reverse

/-- Drop the parts at the end that say nothing; `latest` holds the parts, the last one first. -/
def trimEnd : List String → List String
  | [] => []
  | [part] => [part]
  | part :: earlier => if part = "" || part = "." then trimEnd earlier else part :: earlier

/-- The path of the directory that holds what a path leads to; empty for the current directory. -/
def parent (path : String) : String :=
  String.intercalate "/" (trimEnd ((trimEnd (parts path).reverse).drop 1)).reverse

/-- `path` and the directories above it, at most `count` of them, without the current directory. -/
def ancestors : Nat → String → List String
  | 0, _ => []
  | count + 1, path => if path = "" then [] else path :: ancestors count (parent path)

end SampleShapes.CommandLine.Path
