/-
Building a machine from its configuration, and changing the disks in its
drives.
-/
import AmstradCpc.Config.File
import AmstradCpc.Machine

namespace AmstradCpc

open FileTask (note part readFile require within)

/-- The ROMs of a machine; expansions in ascending order of their slots. -/
structure Roms where
  lower : Bank
  upper : Bank
  expansions : List (UInt8 × Bank) := []

namespace Roms

/-- From an image of the firmware and BASIC, without expansions. -/
def ofSystem (image : ByteArray) : Except Error Roms :=
  match Bank.pairOfBytes? image with
  | some (lower, upper) => .ok { lower, upper }
  | none => .error (.config (.systemRomSize image.size))

section Files

variable {m : Type → Type} [Monad m] [MonadFiles m]

/-- A ROM from its file. -/
def loadBank (path : String) : FileTask Unit m Bank := do
  let data ← readFile path
  match Bank.ofBytes? data with
  | some bank => return bank
  | none => throw (.romSize path data.size)

/-- The firmware and BASIC from one file. -/
def loadPair (path : String) : FileTask Unit m (Bank × Bank) := do
  let data ← readFile path
  match Bank.pairOfBytes? data with
  | some pair => return pair
  | none => throw (.romSize path data.size)

def slotNotice (slot : UInt8) (path : String) : Notice :=
  ⟨.trace, .machine, s!"expansion ROM {slot}: {path}"⟩

/-- The expansions of a list of slots. -/
def loadSlots : SlotFiles → FileTask Unit m (List (UInt8 × Bank))
  | [] => return []
  | (slot, path) :: rest => do
    note (slotNotice slot path)
    let bank ← loadBank path
    return (slot, bank) :: (← loadSlots rest)

/-- All ROMs that a configuration names. -/
def load (c : Config) : FileTask Unit m Roms := do
  let some path := c.systemRom | throw (.config .noSystemRom)
  let (lower, upper) ← loadPair path
  let slots ← require c.slots
  c.slotNotices.forM note
  return { lower, upper, expansions := ← loadSlots slots }

end Files

end Roms

namespace Machine

/-! ## Disks -/

section Disks

variable {m : Type → Type} [Monad m] [MonadFiles m]

/-- Works on the drives. -/
def onDrives {α : Type} (task : FileTask Drives m α) : FileTask Machine m α :=
  within (·.board.drives) (fun machine drives =>
    { machine with board := { machine.board with drives } }) task

/-- Stops on a model without drives. -/
def requireDisc (path : String) : FileTask Machine m Unit := do
  let machine ← part
  if machine.board.hasDisc then return
  else throw (.disk path (.noInterface machine.model.name))

/-- Puts the disk of a file into a drive. -/
def insertDisk (drive : Nat) (path : String) : FileTask Machine m Unit := do
  requireDisc path
  onDrives (Drives.insert drive path)

/-- Takes the disk out of a drive. -/
def removeDisk (drive : Nat) : FileTask Machine m Unit := onDrives (Drives.remove drive)

/-- Makes the file of a new disk, and puts that into a drive. -/
def createDisk (drive : Nat) (path : String) (format : Disk.Format) : FileTask Machine m Unit := do
  requireDisc path
  onDrives (Drives.create drive path format)

/-- Takes all disks out. -/
def shutdown : FileTask Machine m Unit := onDrives Drives.flush

end Disks

/-! ## Building -/

/-- A machine that has just been switched on, with nothing in its drives. -/
def ofConfig (c : Config) (roms : Roms) : Machine :=
  let memory := roms.expansions.foldl (fun memory (slot, rom) => memory.setExpansion slot (some rom))
    (Memory.initial c.memorySize.banks roms.lower roms.upper)
  let signals : Signals := { refresh := c.refresh.strap, company := c.company.code }
  Machine.reset {
    cpu := .initial
    board := .initial memory signals c.model.hasDisc
    frame := .initial c.refresh c.monitor c.depth
    model := c.model
    layout := c.language.layout }

/-- What is said when a machine is complete. -/
def builtNotice (c : Config) : Notice :=
  ⟨.info, .machine, s!"{c.model.name} with {c.memorySize.kilobytes}K RAM, {c.monitor.name} monitor, "
    ++ s!"{c.refresh.lines} lines per frame"⟩

section Files

variable {m : Type → Type} [Monad m] [MonadFiles m]

/-- Puts a disk that the configuration names into its drive. -/
def insertConfigured (c : Config) (drive : Nat) : Option String → FileTask Machine m Unit
  | none => return
  | some path => if c.model.hasDisc then insertDisk drive path else note (c.ignoring .machine path)

/-- Completes a machine that has just been switched on. -/
def complete (c : Config) : FileTask Machine m Unit := do
  note resetNotice
  insertConfigured c 0 c.drive0
  insertConfigured c 1 c.drive1
  note (builtNotice c)

end Files

end Machine

end AmstradCpc
