import BridgeMethods.Command.Basic
import BridgeMethods.CommandLine.Grammar

/-!
# Reading the command line

The arguments are read from left to right.  A value that has been seen is checked only when the
next known argument or the end is reached, so that an unknown argument after it is what is told.
After two hyphens, every argument stands for itself.
-/

namespace BridgeMethods

/-- A command, and how much is to be logged about it. -/
structure CommandLine where
  verbosity : Nat
  command : Command
  deriving DecidableEq, Repr

namespace CommandLine

/-- The values and switches of a level that have been read and checked. -/
structure Collected where
  /-- The number of times that more logging has been asked for, if it has. -/
  verbosity : Option Nat := none
  switches : List Switch := []
  path : Option Path := none
  sorts : Option (List MethodSort) := none
  format : Option OutputFormat := none
  output : Option Path := none
  config : Option Path := none
  jobs : Option Nat := none

/-- The reader between two arguments. -/
structure Reader where
  level : Level := .root
  /-- What the root level has said about logging. -/
  rootVerbosity : Option Nat := none
  collected : Collected := {}
  /-- An option that waits for its value, or whose value has yet to be checked. -/
  pending : Option (Valued × Option String) := none
  /-- Whether the path has been seen. -/
  hasPath : Bool := false
  /-- Whether two hyphens have been seen. -/
  trailing : Bool := false

/-- The pieces of a text between commas. -/
def splitCommas : List Char → List (List Char)
  | [] => [[]]
  | ',' :: rest => [] :: splitCommas rest
  | c :: rest =>
      match splitCommas rest with
      | [] => [[c]]
      | piece :: pieces => (c :: piece) :: pieces

/-- The path that a value denotes; it must not be empty. -/
def readPath (value : String) : Except Refusal Path :=
  if value.isEmpty then .error .invalidValue else .ok ⟨value⟩

/-- The sorts that a value lists. -/
def readSorts (value : String) : Except Refusal (List MethodSort) :=
  ((splitCommas value.toList).mapM fun piece => MethodSort.parse (String.ofList piece))
    |>.mapError fun _ => .valueValidation

/-- The number that a value denotes: digits, possibly after a plus sign, that fit into 64 bits. -/
def readCount (value : String) : Except Refusal Nat :=
  let digits := if value.toList.head? = some '+' then value.toList.tail else value.toList
  let count := Data.Json.ofDigits digits
  if digits.isEmpty || !digits.all Char.isDigit || Nat.pow 2 64 ≤ count then .error .valueValidation
  else .ok count

/-- A single value for something that must not have one yet. -/
def single {α : Type} (present : Option α) (value : Except Refusal α) : Except Refusal (Option α) :=
  if present.isSome then .error .argumentConflict else value.map some

/-- Takes the value of an option.  Only sorts may be given repeatedly. -/
def Collected.accept (collected : Collected) (value : String) :
    Valued → Except Refusal Collected
  | .path => do return { collected with path := ← single collected.path (readPath value) }
  | .sort => do
      let sorts ← readSorts value
      return { collected with sorts := some (collected.sorts.getD [] ++ sorts) }
  | .format => do
      let format := match OutputFormat.ofName? value with
        | some format => .ok format
        | none => .error .invalidValue
      return { collected with format := ← single collected.format format }
  | .output => do return { collected with output := ← single collected.output (readPath value) }
  | .config => do return { collected with config := ← single collected.config (readPath value) }
  | .jobs => do return { collected with jobs := ← single collected.jobs (readCount value) }

/-- The largest number of times that asking for more logging is counted. -/
def maxVerbosity : Nat := 255

/-- Takes a switch.  Only the one for logging may be given repeatedly. -/
def Collected.acceptSwitch (collected : Collected) : Switch → Except Refusal Collected
  | .verbose =>
      .ok { collected with verbosity := some (min maxVerbosity (collected.verbosity.getD 0 + 1)) }
  | .help => .error .displayHelp
  | .version => .error .displayVersion
  | switch =>
      if switch ∈ collected.switches then .error .argumentConflict
      else .ok { collected with switches := switch :: collected.switches }

namespace Reader

/-- Checks the value that has been seen last. -/
def resolve (reader : Reader) : Except Refusal Reader :=
  match reader.pending with
  | none => .ok reader
  | some (_, none) => .error .invalidValue
  | some (valued, some value) => do
      return { reader with collected := ← reader.collected.accept value valued, pending := none }

/-- A switch. -/
def readSwitch (reader : Reader) (switch : Switch) : Except Refusal Reader := do
  let reader ← reader.resolve
  return { reader with collected := ← reader.collected.acceptSwitch switch }

/-- An option, with its value if that is part of the same argument. -/
def readValued (reader : Reader) (valued : Valued) (value : Option String) :
    Except Refusal Reader := do
  let reader ← reader.resolve
  match value with
  | none => return { reader with pending := some (valued, none) }
  | some value => return { reader with collected := ← reader.collected.accept value valued }

/-- An argument by its long name, possibly with a value after an equals sign. -/
def readLong (reader : Reader) (name : String) (value : Option String) :
    Except Refusal Reader :=
  match reader.level.ofLong? name with
  | none => .error .unknownArgument
  | some (.switch switch) =>
      if value.isSome then .error .tooManyValues else reader.readSwitch switch
  | some (.valued valued) => reader.readValued valued value

/-- Arguments by their short names.  What follows the name of an option is its value, an equals
sign in front of it excepted. -/
def readShort (reader : Reader) : List Char → Except Refusal Reader
  | [] => .ok reader
  | name :: rest =>
      match reader.level.ofShort? name with
      | none => .error .unknownArgument
      | some (.switch switch) => do (← reader.readSwitch switch).readShort rest
      | some (.valued valued) =>
          let value := if rest.head? = some '=' then rest.tail else rest
          reader.readValued valued (if rest.isEmpty then none else some (String.ofList value))

/-- An argument that stands for itself.  Only the path of a hierarchy document does. -/
def readFree (reader : Reader) (argument : String) : Except Refusal Reader :=
  match reader.level with
  | .classify =>
      if reader.hasPath then .error .unknownArgument
      else do
        return { ← reader.resolve with pending := some (.path, some argument), hasPath := true }
  | .root =>
      if reader.trailing && (argument = "help" || (Level.ofName? argument).isSome) then
        .error .unknownArgument
      else .error .invalidSubcommand
  | .sorts | .init => .error .unknownArgument

/-- An argument with one hyphen or two in front, if it is neither a hyphen nor two. -/
def readNamed? (reader : Reader) (argument : String) : Option (Except Refusal Reader) :=
  match argument.toList with
  | '-' :: '-' :: c :: rest =>
      let text := c :: rest
      let name := String.ofList (text.takeWhile (· ≠ '='))
      let value := match text.dropWhile (· ≠ '=') with
        | [] => none
        | _ :: value => some (String.ofList value)
      some (reader.readLong name value)
  | ['-', '-'] => none
  | '-' :: c :: rest => some (reader.readShort (c :: rest))
  | _ => none

/-- The reader after one more argument, which is not a subcommand. -/
def step (reader : Reader) (argument : String) : Except Refusal Reader :=
  if reader.trailing then reader.readFree argument
  else if argument = "--" then .ok { reader with trailing := true }
  else
    match reader.readNamed? argument, reader.pending with
    | some result, _ => result
    | none, some (valued, none) => .ok { reader with pending := some (valued, some argument) }
    | none, _ => reader.readFree argument

/-- The command line when there are no more arguments. -/
def finish (reader : Reader) : Except Refusal CommandLine := do
  let reader ← reader.resolve
  let collected := reader.collected
  let commandLine (command : Command) : Except Refusal CommandLine :=
    .ok ⟨(collected.verbosity.or reader.rootVerbosity).getD 0, command⟩
  match reader.level with
  | .root =>
      throw (if collected.verbosity.isSome then .missingSubcommand
        else .displayHelpOnMissingSubcommand)
  | .sorts => commandLine .sorts
  | .init => commandLine (.init (collected.switches.contains .force))
  | .classify =>
      match collected.path with
      | none => throw .missingRequiredArgument
      | some path => commandLine (.classify {
          path
          sorts := collected.sorts
          format := collected.format
          output := collected.output
          settingsFile := collected.config
          includeUnmatched := collected.switches.contains .includeUnmatched
          noParallel := collected.switches.contains .noParallel
          jobs := collected.jobs
          plain := collected.switches.contains .plain })

end Reader

/-- The answer to a request for help about a subcommand, which may be that for help itself. -/
def helpAbout : List String → Refusal
  | [] => .displayHelp
  | [name] =>
      if name = "help" || (Level.ofName? name).isSome then .displayHelp else .invalidSubcommand
  | _ => .invalidSubcommand

/-- Reads the arguments that are left. -/
def readAll (reader : Reader) : List String → Except Refusal CommandLine
  | [] => reader.finish
  | argument :: rest =>
      if reader.level = .root && !reader.trailing && argument = "help" then
        .error (helpAbout rest)
      else
        match if reader.level = .root && !reader.trailing then Level.ofName? argument else none with
        | some level => readAll { level, rootVerbosity := reader.collected.verbosity } rest
        | none => do readAll (← reader.step argument) rest

/-- Reads a command line, the name of the program not included. -/
def parse (arguments : List String) : Except Refusal CommandLine :=
  readAll {} arguments

end CommandLine

end BridgeMethods
