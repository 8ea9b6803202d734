/-
**Trees of files in memory.**

A host whose files are kept in memory: directories and files by the names on the way to them, and a
standard input that can be read once. The directories above the top of the tree are there, and the
way up to them is their place, but nothing else is known of them.
-/

import SampleShapes.CommandLine.Host
import SampleShapes.CommandLine.Path
import SampleShapes.Table

namespace SampleShapes.CommandLine

/-- What stands at a place of a tree. -/
inductive FileNode where
  /-- A directory. -/
  | directory
  /-- A file with its bytes. -/
  | file (bytes : ByteArray)

/-- A tree of files with a standard input. -/
structure FileTree where
  /-- Everything below the top, by the names on the way. -/
  nodes : Table (List String) FileNode := ∅
  /-- What is left of the standard input. -/
  input : String := ""

namespace FileTree

/-- The place is the top of the tree or above it. -/
def isTop (place : List String) : Bool := place.all (· = "..")

/-- What stands at a place; the top and all above it are directories. -/
def node? (tree : FileTree) (place : List String) : Option FileNode :=
  if isTop place then some .directory else tree.nodes.get? place

/-- Put a file at a place, and the directories on the way to it. -/
def put (tree : FileTree) (place : List String) (node : FileNode) : FileTree :=
  let above := (List.range place.length).map place.take
  let nodes := above.foldl (fun nodes place =>
    if place.isEmpty then nodes else nodes.putNew place .directory) tree.nodes
  { tree with nodes := nodes.put place node }

/-! ### Following paths -/

/-- The most bytes in the name of a file. -/
def maxName : Nat := 255

/-- The most bytes in a path. -/
def maxPath : Nat := 4095

/-- Follow one part of a path from a place that must be a directory. -/
def follow (tree : FileTree) (place : List String) (part : String) :
    Except HostError (List String) :=
  match tree.node? place with
  | none => .error .notFound
  | some (.file _) => .error .notDirectory
  | some .directory =>
    if part = "" || part = "." then .ok place
    else if part = ".." then .ok (if isTop place then place ++ [".."] else place.dropLast)
    else if maxName < part.utf8ByteSize then .error .nameTooLong
    else .ok (place ++ [part])

/-- The place that a path leads to, whether or not anything stands there. -/
def locate (tree : FileTree) (path : String) : Except HostError (List String) :=
  if path.contains '\x00' then .error .nulInPath
  else if maxPath < path.utf8ByteSize then .error .nameTooLong
  else if path.isEmpty || path.startsWith "/" then .error .notFound
  else (Path.parts path).foldlM tree.follow []

/-- What a path leads to. -/
def find (tree : FileTree) (path : String) : Except HostError FileNode := do
  match tree.node? (← tree.locate path) with
  | some node => return node
  | none => throw .notFound

/-- A path leads to a directory. -/
def isDirectory (tree : FileTree) (path : String) : Bool :=
  match tree.find path with
  | .ok .directory => true
  | _ => false

/-- The text of the file that a path leads to. -/
def read (tree : FileTree) (path : String) : Except HostError String := do
  match ← tree.find path with
  | .directory => throw .isDirectory
  | .file bytes =>
    match String.fromUTF8? bytes with
    | some text => return text
    | none => throw .notText

/-- The names in a directory. -/
def names (tree : FileTree) (path : String) : List String :=
  match tree.locate path with
  | .ok place =>
    tree.nodes.keys.filterMap fun other =>
      if other.length = place.length + 1 && place.isPrefixOf other then other.getLast? else none
  | .error _ => []

/-- Make a directory; slashes behind its name do not matter. -/
def makeDirectory (tree : FileTree) (path : String) : Except HostError FileTree := do
  let place ← tree.locate (Path.dropSlashes path)
  match tree.node? place with
  | some _ => throw .alreadyThere
  | none => return { tree with nodes := tree.nodes.put place .directory }

/-- Write a file. A path with a slash at its end asks for a directory. -/
def write (tree : FileTree) (path text : String) : Except HostError FileTree := do
  if path.endsWith "/" then
    let place ← (Path.parts (Path.dropSlashes path)).dropLast.foldlM tree.follow []
    match tree.node? place with
    | some .directory => throw .isDirectory
    | some (.file _) => throw .notDirectory
    | none => throw .notFound
  let place ← tree.locate path
  match tree.node? place with
  | some .directory => throw .isDirectory
  | _ => return { tree with nodes := tree.nodes.put place (.file text.toUTF8) }

/-! ### The host -/

/-- Keep what an operation did to a tree, if it did not fail. -/
def attempt (operation : FileTree → Except HostError FileTree) :
    StateM FileTree (Except HostError Unit) :=
  modifyGet fun tree =>
    match operation tree with
    | .ok tree => (.ok (), tree)
    | .error error => (.error error, tree)

/-- The host of a tree of files. -/
def host : Host (StateM FileTree) where
  readInput := modifyGet fun tree => (.ok tree.input, { tree with input := "" })
  readFile path := return (← get).read path
  isThere path := return ((← get).find path).isOk
  isDirectory path := return (← get).isDirectory path
  names path := return (← get).names path
  makeDirectory path := attempt (·.makeDirectory path)
  writeFile path text := attempt (·.write path text)

end FileTree

end SampleShapes.CommandLine
