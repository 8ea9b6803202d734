/-
**Hosts.**

What the command line needs from its surroundings: the standard input, and files and directories by
path. The command line is written against these operations alone, so that it runs on the files of
the system as well as on a tree of files in memory.
-/

namespace SampleShapes.CommandLine

/-- Why an operation failed. -/
structure HostError where
  /-- The number that the system gives to the reason. -/
  code : Option Nat
  /-- The reason in words. -/
  text : String
  deriving DecidableEq, Repr

namespace HostError

/-- The wording of a reason. -/
def message (error : HostError) : String :=
  match error.code with
  | some code => error.text ++ " (os error " ++ toString code ++ ")"
  | none => error.text

/-- Nothing is there. -/
def notFound : HostError := ⟨some 2, "No such file or directory"⟩

/-- Something is there already. -/
def alreadyThere : HostError := ⟨some 17, "File exists"⟩

/-- A directory is needed on the way. -/
def notDirectory : HostError := ⟨some 20, "Not a directory"⟩

/-- A file is needed, and a directory is there. -/
def isDirectory : HostError := ⟨some 21, "Is a directory"⟩

/-- A part of the path is too long. -/
def nameTooLong : HostError := ⟨some 36, "File name too long"⟩

/-- The reasons above, which have the same numbers on every system. -/
def known : List HostError := [notFound, alreadyThere, notDirectory, isDirectory, nameTooLong]

/-- The reason with a number, in words of its own if it is a known one. -/
def ofCode (code : Nat) (text : String) : HostError :=
  (known.find? (·.code = some code)).getD ⟨some code, text⟩

/-- The bytes are no text. -/
def notText : HostError := ⟨none, "stream did not contain valid UTF-8"⟩

/-- The path holds the character that ends a path. -/
def nulInPath : HostError := ⟨none, "file name contained an unexpected NUL byte"⟩

end HostError

/-- The surroundings of the command line, with effects in `m`. -/
structure Host (m : Type → Type) where
  /-- All that is left of the standard input. -/
  readInput : m (Except HostError String)
  /-- The text of a file. -/
  readFile : String → m (Except HostError String)
  /-- Something is at a path. -/
  isThere : String → m Bool
  /-- A directory is at a path. -/
  isDirectory : String → m Bool
  /-- The names in a directory. -/
  names : String → m (List String)
  /-- Make a directory in an existing one. -/
  makeDirectory : String → m (Except HostError Unit)
  /-- Write a file in an existing directory. -/
  writeFile : String → String → m (Except HostError Unit)

namespace Host

variable {m : Type → Type} [Monad m]

/-- Make the first of some directories, each of which lies in the next, and those of the others
that are missing. -/
def makeDirectories (host : Host m) : List String → m (Except HostError Unit)
  | [] => pure (.ok ())
  | path :: above => do
    match ← host.makeDirectory path with
    | .ok () => return .ok ()
    | .error error =>
      if error = .notFound then
        match ← host.makeDirectories above with
        | .error error => return .error error
        | .ok () => tolerate path (← host.makeDirectory path)
      else tolerate path (.error error)
where
  /-- A failure does not matter if the directory is there. -/
  tolerate (path : String) (result : Except HostError Unit) : m (Except HostError Unit) := do
    match result with
    | .ok () => return .ok ()
    | .error error => return if ← host.isDirectory path then .ok () else .error error

end Host

end SampleShapes.CommandLine
