import BridgeMethods.Command.Classify
import BridgeMethods.Command.Init

/-!
# Running commands

A command that succeeds has a text to print, which may be empty; one that fails prints nothing.
-/

namespace BridgeMethods

/-- Runs a command.  The result is the text to print; `onTerminal` tells whether it goes to a
terminal. -/
def Command.run {m : Type → Type} [Monad m] [FileAccess m] (command : Command)
    (onTerminal : Bool) (threads : ThreadStart := .unlimited) :
    m (Except CommandError String) := do
  match command with
  | .classify options => options.run onTerminal threads
  | .sorts => return .ok MethodSort.listing
  | .init force =>
      return (← Settings.create ⟨"."⟩ force).map fun _ =>
        "Created " ++ Settings.fileName ++ " configuration file\n"

end BridgeMethods
