/-
**The program.**

The command line on the files and the standard input of the system.
-/

import SampleShapes.CommandLine.Usage

namespace SampleShapes.CommandLine

namespace HostError

/-- The reason with the number that the system gives, which may be the negative of the usual
one in 32 bits. -/
def ofNumber (code : UInt32) (text : String) : HostError :=
  ofCode (if code.toNat < 0x80000000 then code.toNat else 0x100000000 - code.toNat) text

/-- The reason that the system gives for an error. -/
def ofSystem : IO.Error → HostError
  | .unexpectedEof => ⟨none, "unexpected end of file"⟩
  | .userError text => ⟨none, text⟩
  | .alreadyExists _ code text
  | .otherError code text
  | .resourceBusy code text
  | .resourceVanished code text
  | .unsupportedOperation code text
  | .hardwareFault code text
  | .unsatisfiedConstraints code text
  | .illegalOperation code text
  | .protocolError code text
  | .timeExpired code text
  | .interrupted _ code text
  | .noFileOrDirectory _ code text
  | .invalidArgument _ code text
  | .permissionDenied _ code text
  | .resourceExhausted _ code text
  | .inappropriateType _ code text
  | .noSuchThing _ code text => ofNumber code text

end HostError

namespace Host

/-- Run an action and keep the reason if it fails. -/
def attempt {α : Type} (action : IO α) : IO (Except HostError α) := do
  try return .ok (← action)
  catch error => return .error (.ofSystem error)

/-- The text that bytes write. -/
def textOf (bytes : Except HostError ByteArray) : Except HostError String := do
  match String.fromUTF8? (← bytes) with
  | some text => return text
  | none => throw .notText

/-- The host of the files of the system. -/
def system : Host IO where
  readInput := return textOf (← attempt do (← IO.getStdin).readBinToEnd)
  readFile path := return textOf (← attempt (IO.FS.readBinFile path))
  isThere path := do return ← ((← IO.currentDir) / path).pathExists
  isDirectory path := do return ← ((← IO.currentDir) / path).isDir
  names path := do
    match ← attempt ((← IO.currentDir) / path).readDir with
    | .ok entries => return entries.toList.map (·.fileName)
    | .error _ => return []
  makeDirectory path := attempt (IO.FS.createDir path)
  writeFile path text := attempt (IO.FS.writeFile path text)

end Host

/-- Answer arguments: what to say on either output, and the status to end with. -/
def respond (words : List String) : IO (String × String × Nat) := do
  match Invocation.read words with
  | .error misuse => return misuse.answer
  | .ok invocation => return (← invocation.run Host.system).answer

end SampleShapes.CommandLine

/-- Run the command line. -/
def main (words : List String) : IO UInt32 := do
  let (printed, reported, status) ← SampleShapes.CommandLine.respond words
  IO.print printed
  IO.eprint reported
  return UInt32.ofNat status
