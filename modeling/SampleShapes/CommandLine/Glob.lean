/-
**Patterns of paths.**

A pattern is matched part by part: a part is a pattern of names, or `**`, which stands for any
number of directories. Matches come in the order of names, and directories are followed before the
next name is looked at.
-/

import SampleShapes.CommandLine.Host
import SampleShapes.CommandLine.NamePattern
import SampleShapes.CommandLine.Path
import SampleShapes.Sorting

namespace SampleShapes.CommandLine

namespace Glob

/-! ### Patterns -/

/-- A part of a pattern. -/
inductive Part where
  /-- A name, taken as it is. -/
  | name (name : String)
  /-- A pattern of names. -/
  | pattern (pieces : List Piece)
  /-- Any number of directories. -/
  | directories
  deriving DecidableEq, Repr

/-- Read one part. -/
def part? (text : String) : Option Part :=
  if text = "**" then some .directories
  else do
    let pieces ← pieces? text.length text.toList
    match pieces.mapM Piece.char? with
    | some _ => return .name text
    | none => return .pattern pieces

/-- A run of parts `**` is one of them. -/
def collapse : List Part → List Part
  | .directories :: .directories :: rest => collapse (.directories :: rest)
  | part :: rest => part :: collapse rest
  | [] => []

/-- Match a name against a part. -/
def Part.matchName (name : String) : Part → Bool
  | .name expected => name = expected
  | .pattern pieces => matchPieces pieces name.toList
  | .directories => false

/-! ### Walking -/

variable {m : Type → Type} [Monad m]

/-- No path leads through more directories than this. -/
def maxDepth : Nat := 2048

/-- The path to `name` in the directory at `path`; names in the current directory stand alone. -/
def entryPath (path name : String) : String :=
  if Path.isCurrent path then name else Path.join path name

/-- The names in a directory, in order. -/
def sortedNames (host : Host m) (path : String) : m (List String) := do
  return Sorting.sort (fun first second => first ≤ second) (← host.names path)

/-- Look at everything below `path`: each entry first by itself, then what is in it. -/
def descend (host : Host m) (look : String → String → Bool → m (List String)) :
    Nat → String → m (List String)
  | 0, _ => pure []
  | depth + 1, path => do
    let found ← (← sortedNames host path).mapM fun name => do
      let entry := entryPath path name
      let isDirectory ← host.isDirectory entry
      let own ← look name entry isDirectory
      let deeper ← if isDirectory then descend host look depth entry else pure []
      return own ++ deeper
    return found.flatten

/-- A directory is needed, or it does not matter. -/
def admitted (needDirectory isDirectory : Bool) (path : String) : List String :=
  if needDirectory && !isDirectory then [] else [path]

/-- The paths from `path` on that the parts match. -/
def walk (host : Host m) (needDirectory : Bool) :
    List Part → String → Bool → m (List String)
  | [], path, isDirectory => pure (admitted needDirectory isDirectory path)
  | .name name :: rest, path, isDirectory => do
    let entry := entryPath path name
    let found ← if name = "." || name = ".." then pure isDirectory else host.isThere entry
    if found then walk host needDirectory rest entry (← host.isDirectory entry) else return []
  | .pattern pieces :: rest, path, isDirectory => do
    if !isDirectory then return []
    let dots := if pieces.head? = some (.char '.') then ["..", "."] else []
    let special ← (dots.filter fun name => matchPieces pieces name.toList).mapM fun name =>
      walk host needDirectory rest (Path.join path name) true
    let found ← (← sortedNames host path).mapM fun name => do
      if matchPieces pieces name.toList then
        let entry := entryPath path name
        walk host needDirectory rest entry (← host.isDirectory entry)
      else return []
    return special.flatten ++ found.flatten
  | [.directories], path, isDirectory => do
    if !isDirectory then return []
    descend host (fun _ entry isDirectory => return if isDirectory then [entry] else []) maxDepth
      path
  | .directories :: part :: rest, path, isDirectory => do
    if !isDirectory then return []
    let look (name entry : String) (isDirectory : Bool) : m (List String) :=
      if part.matchName name then walk host needDirectory rest entry isDirectory else pure []
    descend host look maxDepth path

/-- The parts of a pattern; a slash at the end adds none. -/
def parts? (pattern : String) : Option (List Part) :=
  let texts := Path.parts (if pattern.startsWith "/" then (pattern.drop 1).toString else pattern)
  let texts := if texts.getLast? = some "" then texts.dropLast else texts
  (texts.mapM part?).map collapse

/-- The paths that a pattern matches; `none` if it is no pattern. -/
def expand (host : Host m) (pattern : String) : m (Option (List String)) := do
  match parts? pattern with
  | none => return none
  | some parts =>
    let start := if pattern.startsWith "/" then "/" else "."
    return some (← walk host (pattern.endsWith "/") parts start true)

/-- The text is a pattern, not the path of one file. -/
def isPattern (text : String) : Bool :=
  text.any fun c => c = '*' || c = '?' || c = '[' || c = '\x7b'

end Glob

end SampleShapes.CommandLine
