/-
Loading and saving the files of snapshots.
-/
import AmstradCpc.Machine.Build
import AmstradCpc.Snapshot

namespace AmstradCpc.Machine

open FileTask (note part setPart modifyPart readFile writeFile attempt)

variable {m : Type → Type} [Monad m]

/-- Loads a snapshot. A machine that cannot take it is reset. -/
def loadSnapshotBytes (data : ByteArray) : FileTask Machine m Unit := do
  let machine ← part
  (Snapshot.loadNotices data machine).forM note
  let (result, machine) := Snapshot.loadOrReset data machine
  setPart machine
  match result with
  | .ok () => return
  | .error cause => throw (.snapshot cause)

variable [MonadFiles m]

/-- Loads the file of a snapshot. The machine is reset if there is none. -/
def loadSnapshot (path : String) : FileTask Machine m Unit := do
  match ← (readFile path).attempt with
  | .error e =>
    note resetNotice
    modifyPart reset
    throw e
  | .ok data =>
    loadSnapshotBytes data
    note ⟨.info, .machine, s!"snapshot {path}"⟩

def saveSnapshot (path : String) : FileTask Machine m Unit := do
  writeFile path (Snapshot.save (← part))
  note ⟨.info, .machine, s!"snapshot saved to {path}"⟩

end AmstradCpc.Machine
