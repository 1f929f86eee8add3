/-
Operations on a part of the machine that use files. Such an operation may stop
with an error; what it changed until then stays changed, and the notices it
left stay in the journal.
-/
import AmstradCpc.Notice
import AmstradCpc.Storage

namespace AmstradCpc

abbrev FileTask (σ : Type) (m : Type → Type) (α : Type) := ExceptT Error (StateT (σ × Journal) m) α

namespace FileTask

variable {σ τ : Type} {m : Type → Type} [Monad m]

/-- Leaves a notice. -/
def note (n : Notice) : FileTask σ m Unit := modify fun (s, journal) => (s, journal.push n)

/-- The part that is worked on. -/
def part : FileTask σ m σ := do return (← get).1

def setPart (s : σ) : FileTask σ m Unit := modify fun (_, journal) => (s, journal)

def modifyPart (change : σ → σ) : FileTask σ m Unit := modify fun (s, journal) => (change s, journal)

/-- Stops unless there is a result. -/
def require {α : Type} : Except Error α → FileTask σ m α
  | .ok a => pure a
  | .error e => throw e

section Files

variable [MonadFiles m]

def readFile (path : String) : FileTask σ m ByteArray := do
  require (← (MonadFiles.read path : m _))

def writeFile (path : String) (bytes : ByteArray) : FileTask σ m Unit := do
  require (← (MonadFiles.write path bytes : m _))

end Files

/-- Works on a part of the whole. -/
def within {α : Type} (get : τ → σ) (set : τ → σ → τ) (task : FileTask σ m α) : FileTask τ m α :=
  ExceptT.mk fun (whole, journal) => do
    let (result, part, journal) ← task.run (get whole, journal)
    return (result, set whole part, journal)

/-- Goes on after an error, which is then the result. -/
def attempt {α : Type} (task : FileTask σ m α) : FileTask σ m (Except Error α) :=
  ExceptT.mk fun s => do
    let (result, s) ← task.run s
    return (.ok result, s)

end FileTask

end AmstradCpc
