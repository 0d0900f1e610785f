import BridgeMethods.Definition.Document
import BridgeMethods.Files.Access

/-!
# Loading hierarchy documents

The name of a file tells in which format its document is written: TOML if the extension says so,
in any case of letters, and JSON otherwise.
-/

namespace BridgeMethods

namespace HierarchyDocument

/-- Whether the document at a path is written in TOML. -/
def isToml (path : Path) : Bool :=
  path.extension?.any (Text.lowerAscii · = "toml")

/-- The document that the file at a path holds if its text is `source`. -/
def ofText (path : Path) (source : String) : Except Error HierarchyDocument :=
  withContext ("Failed to parse " ++ path.text)
    (if isToml path then ofToml source else ofJson source)

/-- Loads the document at a path. -/
def load {m : Type → Type} [Monad m] [FileAccess m] (path : Path) :
    m (Except Error HierarchyDocument) := do
  match ← FileAccess.read path with
  | .ok source => return ofText path source
  | .error fault =>
      return .error (.fileSystem ("Failed to read hierarchy document " ++ path.text)
        (some path.text) (some fault))

end HierarchyDocument

end BridgeMethods
