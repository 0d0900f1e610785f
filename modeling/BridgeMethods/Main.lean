import BridgeMethods.CommandLine.Outcome

/-!
# The program

Runs the library on real files.  One thread does all the work, so there are none to start.
-/

namespace BridgeMethods

/-- The reason that an input or output error stands for. -/
def FileFault.ofError : IO.Error → FileFault
  | .noFileOrDirectory .. => .notFound
  | .inappropriateType _ _ "not a directory" => .notADirectory
  | .inappropriateType _ 21 _ => .isADirectory
  | error => .other (toString error)

/-- Carries out an access to files and keeps the reason if it is refused. -/
def accessing {α : Type} (action : IO α) : IO (Except FileFault α) := do
  match ← action.toBaseIO with
  | .ok value => return .ok value
  | .error error => return .error (.ofError error)

instance : FileAccess IO where
  workingDirectory := accessing do return ⟨(← IO.currentDir).toString⟩
  read path := do
    match ← accessing (IO.FS.readBinFile path.text) with
    | .error fault => return .error fault
    | .ok bytes => return (String.fromUTF8? bytes).elim (.error .notText) .ok
  pathExists path := do return (← accessing (IO.FS.realPath path.text)).isOk
  write path text := accessing (IO.FS.writeFile path.text text)

end BridgeMethods

def main (arguments : List String) : IO UInt32 := do
  let output ← IO.getStdout
  let outcome ← BridgeMethods.CommandLine.run arguments (← output.isTty)
  output.putStr outcome.output
  (← IO.getStderr).putStr outcome.diagnostics
  return outcome.exitCode.toUInt32
