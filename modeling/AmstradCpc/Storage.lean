/-
Files by name. What the program does with files is written for any monad that
can read and write them, so that it runs on a disk as well as on a tree of
files that is only a value.
-/
import AmstradCpc.Error

namespace AmstradCpc

class MonadFiles (m : Type → Type) where
  readFile : String → m (Except FileProblem ByteArray)
  /-- The file holds these bytes afterwards, and no others. -/
  writeFile : String → ByteArray → m (Except FileProblem Unit)

namespace MonadFiles

variable {m : Type → Type} [Monad m] [MonadFiles m]

/-- Reads a file that is to be UTF-8 text. -/
def readText (path : String) : m (Except FileProblem String) := do
  match ← readFile path with
  | .error problem => return .error problem
  | .ok bytes =>
    match String.fromUTF8? bytes with
    | some text => return .ok text
    | none => return .error .invalidData

/-- Reads a file, and names it if that fails. -/
def read (path : String) : m (Except Error ByteArray) := do
  return (← readFile path).mapError (.file path)

/-- Writes a file, and names it if that fails. -/
def write (path : String) (bytes : ByteArray) : m (Except Error Unit) := do
  return (← writeFile path bytes).mapError (.file path)

end MonadFiles

end AmstradCpc
