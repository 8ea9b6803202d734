/-
**Arguments.**

A command, then options: `--name value`, `--name=value`, `-n value`, `-nvalue` or `-n=value`, and
flags, of which short ones may be run together. Inputs may be several values behind one option.
The value of an option is checked when the next known option follows, or at the end; an unknown
argument is reported before that.

* `Invocation.read`: the invocation that arguments ask for, or the way in which they are misused.
-/

import SampleShapes.Options

namespace SampleShapes.CommandLine

/-- The ways in which arguments ask for no run. -/
inductive Misuse where
  /-- Help is asked for. -/
  | help
  /-- The version is asked for. -/
  | version
  /-- There is nothing to do, for which help is shown. -/
  | noCommand
  /-- The command is not known. -/
  | unknownCommand (word : String)
  /-- The argument is not known here. -/
  | unknownArgument (word : String)
  /-- An option has no value, or an empty one where one must not be empty. -/
  | missingValue (option : String)
  /-- A flag has a value. -/
  | unexpectedValue (option : String)
  /-- The value of an option does not fit. -/
  | unfitValue (option value : String)
  /-- An option is given twice. -/
  | repeated (option : String)
  /-- A required option is not given. -/
  | missingOption (option : String)
  deriving DecidableEq, Repr

/-- What is to be done with the samples. -/
inductive Command where
  /-- Render the declarations. -/
  | ts
  /-- Print the declarations as JSON. -/
  | decls
  /-- Print the shape graph as JSON. -/
  | shapes
  deriving DecidableEq, Repr

/-- The command of a word. -/
def Command.ofWord? : String → Option Command
  | "ts" => some ts
  | "decls" => some decls
  | "shapes" => some shapes
  | _ => none

/-- A run that is asked for. -/
structure Invocation where
  /-- What is to be done. -/
  command : Command
  /-- Paths, patterns of paths, and hyphens for the standard input. -/
  inputs : List String
  /-- Every line of an input is a document. -/
  lineByLine : Bool
  /-- The part of each document to look at. -/
  pointer : Option String
  /-- The options of inference and rendering. -/
  options : Options
  /-- The file to write to, instead of the standard output. -/
  output : Option String
  deriving DecidableEq, Repr

/-! ### Options -/

/-- The options of the command line. -/
inductive Flag where
  | ndjson
  | jsonPointer
  | input
  | rootName
  | detectDates
  | maxDepth
  | references
  | classes
  | out
  | help
  | version
  deriving DecidableEq, Repr

/-- How many values an option takes. -/
inductive Arity where
  /-- None. -/
  | none
  /-- One. -/
  | one
  /-- One or more. -/
  | many
  deriving DecidableEq, Repr

namespace Flag

/-- The long name of an option. -/
def name : Flag → String
  | ndjson => "ndjson"
  | jsonPointer => "json-pointer"
  | input => "input"
  | rootName => "root-name"
  | detectDates => "detect-dates"
  | maxDepth => "max-depth"
  | references => "references"
  | classes => "classes"
  | out => "out"
  | help => "help"
  | version => "version"

/-- The letter of an option, if it has one. -/
def letter? : Flag → Option Char
  | input => some 'i'
  | out => some 'o'
  | help => some 'h'
  | version => some 'V'
  | _ => none

/-- How many values an option takes. -/
def arity : Flag → Arity
  | jsonPointer | rootName | maxDepth | references | out => .one
  | input => .many
  | ndjson | detectDates | classes | help | version => .none

/-- The options before a command. -/
def general : List Flag := [help, version]

/-- The options of a command. -/
def ofCommand : Command → List Flag
  | .ts => [ndjson, jsonPointer, input, rootName, detectDates, maxDepth, references, classes, out,
      help]
  | .decls | .shapes => [ndjson, jsonPointer, input, rootName, detectDates, maxDepth, references,
      out, help]

end Flag

/-- A whole number below 2^64, with an optional plus sign. -/
def depth? (text : String) : Option Nat :=
  let digits :=
    match text.toList with
    | '+' :: rest => rest
    | chars => chars
  if digits.isEmpty || !digits.all Char.isDigit then none
  else
    let value := digits.foldl (fun sum c => sum * 10 + (c.toNat - '0'.toNat)) 0
    if value < 0x10000000000000000 then some value else none

/-- Why a value does not fit an option, if it does not. -/
def Flag.misfit? (flag : Flag) (value : String) : Option Misuse :=
  match flag with
  | .maxDepth => if (depth? value).isNone then some (.unfitValue flag.name value) else none
  | .references =>
    if (ReferencePolicy.ofName? value).isNone then some (.unfitValue flag.name value) else none
  | .out => if value.isEmpty then some (.missingValue flag.name) else none
  | _ => none

/-! ### Reading arguments -/

/-- What the arguments have said so far. -/
structure Reading where
  /-- The options given, with their values. -/
  given : List (Flag × List String) := []
  /-- An option whose values are still being collected, and those found. -/
  pending : Option (Flag × List String) := none
  /-- The next word may be a value of the pending option. -/
  awaiting : Bool := false
  /-- A double hyphen has ended the options. -/
  ended : Bool := false

namespace Reading

/-- Take an option with its values. -/
def accept (reading : Reading) (flag : Flag) (values : List String) : Except Misuse Reading := do
  if flag.arity ≠ .none && values.isEmpty then
    throw (.missingValue flag.name)
  if flag = .help then
    throw .help
  if flag = .version then
    throw .version
  if flag.arity ≠ .many && reading.given.any (·.1 = flag) then
    throw (.repeated flag.name)
  match values.findSome? flag.misfit? with
  | some misuse => throw misuse
  | none => return { reading with given := reading.given ++ [(flag, values)] }

/-- Take the pending option with the values found. -/
def settle (reading : Reading) : Except Misuse Reading :=
  match reading.pending with
  | some (flag, values) => { reading with pending := none, awaiting := false }.accept flag values
  | none => .ok { reading with awaiting := false }

/-- Take an option whose values are known, after the pending one. -/
def take (reading : Reading) (flag : Flag) (values : List String) : Except Misuse Reading := do
  (← reading.settle).accept flag values

/-- Start to collect the values of an option, after taking the pending one. -/
def await (reading : Reading) (flag : Flag) : Except Misuse Reading := do
  return { ← reading.settle with pending := some (flag, []), awaiting := true }

/-- Read a long option. -/
def long (flags : List Flag) (reading : Reading) (word : String) (chars : List Char) :
    Except Misuse Reading :=
  let name := String.ofList (chars.takeWhile (· ≠ '='))
  let value? :=
    match chars.dropWhile (· ≠ '=') with
    | _ :: value => some (String.ofList value)
    | [] => none
  match flags.find? (·.name = name), value? with
  | none, _ => .error (.unknownArgument word)
  | some flag, some value =>
    if flag.arity = .none then .error (.unexpectedValue flag.name)
    else reading.take flag [value]
  | some flag, none =>
    if flag.arity = .none then reading.take flag [] else reading.await flag

/-- Read short options that are run together. -/
def short (flags : List Flag) (word : String) : Reading → List Char → Except Misuse Reading
  | reading, [] => .ok reading
  | reading, c :: rest =>
    match flags.find? (·.letter? = some c) with
    | none => .error (.unknownArgument word)
    | some flag =>
      if flag.arity = .none then do
        short flags word (← reading.take flag []) rest
      else
        match rest with
        | [] => reading.await flag
        | '=' :: value => reading.take flag [String.ofList value]
        | value => reading.take flag [String.ofList value]

/-- Read a word that is no option. -/
def plain (reading : Reading) (word : String) : Except Misuse Reading :=
  match reading.pending, reading.awaiting with
  | some (flag, values), true =>
    .ok { reading with pending := some (flag, values ++ [word]), awaiting := flag.arity = .many }
  | _, _ => .error (.unknownArgument word)

/-- Read one argument. -/
def step (flags : List Flag) (reading : Reading) (word : String) : Except Misuse Reading :=
  if reading.ended then .error (.unknownArgument word)
  else
    match word.toList with
    | ['-', '-'] => .ok { reading with ended := true }
    | '-' :: '-' :: chars => reading.long flags word chars
    | '-' :: c :: rest => Reading.short flags word reading (c :: rest)
    | _ => reading.plain word

/-- The values of an option. -/
def values (reading : Reading) (flag : Flag) : List String :=
  (reading.given.filter (·.1 = flag)).flatMap Prod.snd

/-- The option is given. -/
def has (reading : Reading) (flag : Flag) : Bool :=
  reading.given.any (·.1 = flag)

end Reading

namespace Invocation

/-- The invocation of a command that the options given ask for. -/
def ofReading (command : Command) (reading : Reading) : Invocation :=
  let defaults : Options := {}
  let value? (flag : Flag) := (reading.values flag).head?
  { command
    inputs := reading.values .input
    lineByLine := reading.has .ndjson
    pointer := value? .jsonPointer
    options :=
      { rootName := (value? .rootName).getD defaults.rootName
        style := if reading.has .classes then .classes else .interfaces
        detectDates := reading.has .detectDates
        maxDepth := ((value? .maxDepth).bind depth?).getD defaults.maxDepth
        references :=
          ((value? .references).bind ReferencePolicy.ofName?).getD defaults.references }
    output := value? .out }

/-- Read the arguments of a command. -/
def readOptions (command : Command) (words : List String) : Except Misuse Invocation := do
  let reading ← words.foldlM (Reading.step (Flag.ofCommand command)) {}
  let reading ← reading.settle
  if reading.has .input then return ofReading command reading
  else throw (.missingOption Flag.input.name)

/-- What the command `help` answers to the words behind it: they must lead to a command. -/
def readHelp : List String → Misuse
  | [] => .help
  | word :: rest =>
    if word ≠ "help" && (Command.ofWord? word).isNone then .unknownCommand word
    else
      match rest with
      | [] => .help
      | next :: _ => .unknownCommand next

/-- Read arguments after some general options; `ended` says that a double hyphen was among
them. -/
def readFrom (ended : Bool) : List String → Except Misuse Invocation
  | [] => .error .noCommand
  | word :: rest =>
    match ended, Command.ofWord? word, word.toList with
    | true, some _, _ => .error (.unknownArgument word)
    | true, none, _ =>
      .error (if word = "help" then .unknownArgument word else .unknownCommand word)
    | false, some command, _ => readOptions command rest
    | false, none, ['-', '-'] => readFrom true rest
    | false, none, '-' :: '-' :: chars => do
      let _ ← Reading.long Flag.general {} word chars
      readFrom false rest
    | false, none, '-' :: c :: chars => do
      let _ ← Reading.short Flag.general word {} (c :: chars)
      readFrom false rest
    | false, none, _ =>
      .error (if word = "help" then readHelp rest else .unknownCommand word)

/-- Read all arguments. -/
def read (words : List String) : Except Misuse Invocation := readFrom false words

end Invocation

end SampleShapes.CommandLine
