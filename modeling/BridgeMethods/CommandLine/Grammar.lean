/-!
# The grammar of the command line

A command line names a subcommand.  Before and after it stand switches, and options that take a
value; which of them are known depends on the subcommand.  Each has a long name or a short one or
both.
-/

namespace BridgeMethods.CommandLine

/-- The part of a command line that is being read: before the subcommand, or that of one. -/
inductive Level where
  | root
  | classify
  | sorts
  | init
  deriving DecidableEq, Repr

/-- An argument without a value. -/
inductive Switch where
  | verbose
  | help
  | version
  | includeUnmatched
  | noParallel
  | plain
  | force
  deriving DecidableEq, Repr

/-- An argument with a value.  The path has no name: it stands for itself. -/
inductive Valued where
  | path
  | sort
  | format
  | output
  | config
  | jobs
  deriving DecidableEq, Repr

/-- An argument that has a name. -/
inductive Parameter where
  | switch (switch : Switch)
  | valued (valued : Valued)
  deriving DecidableEq, Repr

/-- An argument with its names. -/
structure Declaration where
  parameter : Parameter
  short : Option Char
  long : String

namespace Level

/-- The arguments that every level knows. -/
def shared : List Declaration :=
  [⟨.switch .verbose, some 'v', "verbose"⟩, ⟨.switch .help, some 'h', "help"⟩]

/-- The arguments that a level knows. -/
def declarations : Level → List Declaration
  | .root => shared ++ [⟨.switch .version, some 'V', "version"⟩]
  | .classify => shared ++ [
      ⟨.valued .sort, some 's', "sort"⟩,
      ⟨.valued .format, some 'f', "format"⟩,
      ⟨.valued .output, some 'o', "output"⟩,
      ⟨.valued .config, some 'c', "config"⟩,
      ⟨.switch .includeUnmatched, none, "include-unmatched"⟩,
      ⟨.switch .noParallel, none, "no-parallel"⟩,
      ⟨.valued .jobs, some 'j', "jobs"⟩,
      ⟨.switch .plain, none, "plain"⟩]
  | .sorts => shared
  | .init => shared ++ [⟨.switch .force, some 'f', "force"⟩]

/-- The argument of a long name. -/
def ofLong? (level : Level) (name : String) : Option Parameter :=
  (level.declarations.find? (·.long = name)).map (·.parameter)

/-- The argument of a short name. -/
def ofShort? (level : Level) (name : Char) : Option Parameter :=
  (level.declarations.find? (·.short = some name)).map (·.parameter)

/-- The subcommand of a name. -/
def ofName? : String → Option Level
  | "classify" => some .classify
  | "sorts" => some .sorts
  | "init" => some .init
  | _ => none

end Level

/-- Why a command line is not run: it is refused, or it asks for information instead. -/
inductive Refusal where
  | unknownArgument
  | invalidValue
  | valueValidation
  | argumentConflict
  | tooManyValues
  | missingRequiredArgument
  | invalidSubcommand
  | missingSubcommand
  | displayHelp
  | displayVersion
  | displayHelpOnMissingSubcommand
  deriving DecidableEq, Repr

end BridgeMethods.CommandLine
