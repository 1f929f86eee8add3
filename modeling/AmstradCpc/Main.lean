/-
The program as it is started from a command line: on real files, in real time,
with everything that it has to say on the error output.
-/
import AmstradCpc.Program

namespace AmstradCpc

/-- What is wrong with a file, from what the system says about it. -/
def FileProblem.ofSystem : IO.Error → FileProblem
  | .noFileOrDirectory .. => .notFound
  | .permissionDenied .. => .permissionDenied
  | .inappropriateType _ 20 _ => .notADirectory
  | .inappropriateType _ 21 _ => .isADirectory
  | .invalidArgument _ 36 _ => .invalidFilename
  | .invalidArgument .. => .invalidInput
  | e => .other e.toString

/-- The result of working with a file. -/
def attemptOnFile {α : Type} (task : IO α) : IO (Except FileProblem α) := do
  match ← task.toBaseIO with
  | .ok a => return .ok a
  | .error e => return .error (.ofSystem e)

instance : MonadHost IO where
  readFile path := attemptOnFile (IO.FS.readBinFile path)
  writeFile path bytes := attemptOnFile (IO.FS.writeBinFile path bytes)
  tell text := IO.eprintln text
  report n := IO.eprintln ("[" ++ n.severity.name ++ " " ++ n.topic.path ++ "] " ++ n.shownText)
  now := IO.monoNanosNow
  wait time := IO.sleep (time / 1000000).toUInt32

/-- Where the user says which notices to show. -/
def filterVariable : String := "RUST_LOG"

end AmstradCpc

def main (arguments : List String) : IO UInt32 := do
  let spec ← IO.getEnv AmstradCpc.filterVariable
  return (← AmstradCpc.Program.run arguments spec).toUInt32
