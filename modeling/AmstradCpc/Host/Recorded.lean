/-
A host that is only a value. Its files are a tree, it remembers what it was
given to show, and its time passes only while someone waits.
-/
import AmstradCpc.Host
import AmstradCpc.Storage.Tree

namespace AmstradCpc

inductive RecordedHost.Shown where
  | line (text : String)
  | notice (n : Notice)
  deriving DecidableEq, Repr, Inhabited

structure RecordedHost where
  files : FileTree := {}
  /-- What has been shown, in its order. -/
  shown : Array RecordedHost.Shown := #[]
  /-- Nanoseconds since it was started. -/
  time : Nat := 0
  deriving Inhabited

namespace RecordedHost

def withShown (h : RecordedHost) (what : Shown) : RecordedHost := { h with shown := h.shown.push what }

/-- Does something with the files. -/
def onFiles {α : Type} (task : StateM FileTree α) : StateM RecordedHost α := do
  let h ← get
  let (result, files) := task.run h.files
  set { h with files }
  return result

instance : MonadHost (StateM RecordedHost) where
  readFile path := onFiles (MonadFiles.readFile path)
  writeFile path bytes := onFiles (MonadFiles.writeFile path bytes)
  tell text := modify (·.withShown (.line text))
  report n := modify (·.withShown (.notice n))
  now := do return (← get).time
  wait time := modify fun h => { h with time := h.time + time }

end RecordedHost

end AmstradCpc
