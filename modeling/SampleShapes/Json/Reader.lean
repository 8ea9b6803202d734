/-
**Reading JSON.**

The reader is a machine with a stack of the containers that are still open. Each token completes a
value, opens or closes a container, or moves on to what may follow. A member that is mentioned
again keeps its place and takes the last value.
-/

import SampleShapes.Json.Basic
import SampleShapes.Json.Token
import SampleShapes.Table

namespace SampleShapes.Json

/-- A container that is still open: what it holds so far. -/
inductive Frame where
  /-- An array with its elements, latest first. -/
  | array (elements : List Json)
  /-- An object with its members, and the key of the member that is being read. -/
  | object (members : List (String × Json)) (key : String)

/-- What the reader waits for. -/
inductive Await where
  /-- A value. -/
  | value
  /-- The first element of an array, or its end. -/
  | firstElement
  /-- The first key of the object with the given members, or its end. -/
  | firstKey
  /-- A key of an object with the given members. -/
  | key (members : List (String × Json))
  /-- The colon after a key. -/
  | colon
  /-- A comma, or the end of the innermost container. -/
  | separator
  /-- Nothing: the outermost value is complete. -/
  | nothing (result : Json)

/-- The state of the reader: the open containers, innermost first, and what it waits for. -/
structure Reading where
  /-- The open containers, innermost first. -/
  frames : List Frame
  /-- What may come next. -/
  await : Await

namespace Reading

/-- A value is complete. -/
def complete (frames : List Frame) (value : Json) : Reading :=
  match frames with
  | [] => ⟨[], .nothing value⟩
  | .array elements :: rest => ⟨.array (value :: elements) :: rest, .separator⟩
  | .object members key :: rest =>
    ⟨.object (Table.alterEntries key (fun _ => value) members) key :: rest, .separator⟩

/-- A token where a value may start; a container may open only within `limit` levels. -/
def startValue (limit : Option Nat) (frames : List Frame) : Json.Token → Option Reading
  | .openArray => if allowed then some ⟨.array [] :: frames, .firstElement⟩ else none
  | .openObject => if allowed then some ⟨frames, .firstKey⟩ else none
  | .null => some (complete frames .null)
  | .bool value => some (complete frames (.bool value))
  | .number literal => some (complete frames (.number literal))
  | .string text => some (complete frames (.string text))
  | _ => none
where
  /-- One more container stays within the limit. -/
  allowed : Bool :=
    match limit with
    | none => true
    | some levels => frames.length < levels

/-- The state after one more token. -/
def step (limit : Option Nat) (reading : Reading) (token : Json.Token) : Option Reading :=
  match reading.await, token, reading.frames with
  | .value, token, frames => startValue limit frames token
  | .firstElement, .closeArray, .array _ :: rest => some (complete rest (.array []))
  | .firstElement, token, frames => startValue limit frames token
  | .firstKey, .closeObject, frames => some (complete frames (.object []))
  | .firstKey, .string key, frames => some ⟨.object [] key :: frames, .colon⟩
  | .key members, .string key, frames => some ⟨.object members key :: frames, .colon⟩
  | .colon, .colon, frames => some ⟨frames, .value⟩
  | .separator, .comma, .array elements :: rest => some ⟨.array elements :: rest, .value⟩
  | .separator, .comma, .object members _ :: rest => some ⟨rest, .key members⟩
  | .separator, .closeArray, .array elements :: rest =>
    some (complete rest (.array elements.reverse))
  | .separator, .closeObject, .object members _ :: rest => some (complete rest (.object members))
  | _, _, _ => none

end Reading

/-- The value that a text writes, if it is JSON with at most `limit` containers inside each
other. -/
def read? (limit : Option Nat) (text : String) : Option Json := do
  let tokens ← Token.scan? text
  let reading ← tokens.foldlM (Reading.step limit) ⟨[], .value⟩
  match reading.await with
  | .nothing result => some result
  | _ => none

end SampleShapes.Json
