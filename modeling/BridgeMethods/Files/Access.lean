import BridgeMethods.Error
import BridgeMethods.Files.Path

/-!
# Access to files

What commands need from the file system.  Commands are written against this interface, so that
they run on real files as well as on a `FileTree`.
-/

namespace BridgeMethods

/-- Reading and writing of text files. -/
class FileAccess (m : Type → Type) where
  /-- The absolute path of the working directory. -/
  workingDirectory : m (Except FileFault Path)
  /-- The text of a file. -/
  read : Path → m (Except FileFault String)
  /-- Whether a path leads to a file or a directory. -/
  pathExists : Path → m Bool
  /-- Gives a file a new text; the file is created if it does not exist. -/
  write : Path → String → m (Except FileFault Unit)

end BridgeMethods
