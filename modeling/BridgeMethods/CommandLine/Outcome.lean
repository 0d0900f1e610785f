import BridgeMethods.Command.Run
import BridgeMethods.CommandLine.Reader

/-!
# What a run of the program leaves

A run prints a text and ends with an exit code: 0 if the command succeeds or information is asked
for, 1 if the command fails, and 2 if the command line is refused.
-/

namespace BridgeMethods

/-- The end of a run. -/
structure Outcome where
  exitCode : Nat
  /-- What is printed as the answer. -/
  output : String := ""
  /-- What is told apart from the answer. -/
  diagnostics : String := ""
  deriving DecidableEq, Repr

namespace CommandLine

/-- The version that the program tells when it is asked. -/
def version : String := "0.1.0"

/-- The help text. -/
def usage : String :=
  "Classify JVM methods by sort and detect bridge methods\n"
  ++ "\n"
  ++ "Usage: methodsort [OPTIONS] <COMMAND>\n"
  ++ "\n"
  ++ "Commands:\n"
  ++ "  classify  Classify every method of a class hierarchy document\n"
  ++ "  sorts     List the method sorts and their matcher labels\n"
  ++ "  init      Initialize a .methodsort.toml configuration file\n"
  ++ "\n"
  ++ "Options:\n"
  ++ "  -v, --verbose...  Increase log verbosity\n"
  ++ "  -h, --help        Print help\n"
  ++ "  -V, --version     Print version\n"

/-- What is wrong with a command line that is refused. -/
def Refusal.message : Refusal → String
  | .unknownArgument => "unexpected argument"
  | .invalidValue => "invalid value"
  | .valueValidation => "a value is not accepted"
  | .argumentConflict => "an argument cannot be used multiple times"
  | .tooManyValues => "a value is not expected"
  | .missingRequiredArgument => "a required argument is missing"
  | .invalidSubcommand => "unrecognized subcommand"
  | .missingSubcommand => "a subcommand is required"
  | .displayHelp | .displayVersion | .displayHelpOnMissingSubcommand => ""

/-- The end of a run whose command line names no command to run. -/
def Refusal.outcome : Refusal → Outcome
  | .displayHelp => { exitCode := 0, output := usage }
  | .displayVersion => { exitCode := 0, output := "methodsort " ++ version ++ "\n" }
  | .displayHelpOnMissingSubcommand => { exitCode := 2, diagnostics := usage }
  | refusal => { exitCode := 2, diagnostics := "error: " ++ refusal.message ++ "\n" }

/-- The end of a run whose command has been carried out. -/
def outcome : Except CommandError String → Outcome
  | .ok text => { exitCode := 0, output := text }
  | .error error => {
      exitCode := 1
      diagnostics := "Error: " ++ Text.joinWith "\n  " error.explanation ++ "\n" }

/-- Runs the program with some arguments. -/
def run {m : Type → Type} [Monad m] [FileAccess m] (arguments : List String)
    (onTerminal : Bool) (threads : ThreadStart := .unlimited) : m Outcome := do
  match parse arguments with
  | .error refusal => return refusal.outcome
  | .ok commandLine => return outcome (← commandLine.command.run onTerminal threads)

end CommandLine

end BridgeMethods
