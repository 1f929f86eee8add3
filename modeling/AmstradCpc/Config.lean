/-
The configuration of a machine: what it is made of, what is plugged into it and
how it is shown. Everything has a default, which makes a machine with 128K and
disk drives.
-/
import AmstradCpc.Config.Choice

namespace AmstradCpc

/-- Files for the slots of expansion ROMs, in ascending order of the slots. -/
abbrev SlotFiles := List (UInt8 × String)

/-- Puts a file into a slot, in the place of the one that may be there. -/
def SlotFiles.insert (slot : UInt8) (path : String) : SlotFiles → SlotFiles
  | [] => [(slot, path)]
  | (s, p) :: rest =>
    if slot < s then (slot, path) :: (s, p) :: rest
    else if slot = s then (slot, path) :: rest
    else (s, p) :: insert slot path rest

structure Config where
  company : Company := default
  model : Model := default
  monitor : Monitor := default
  refresh : Refresh := default
  language : Language := default
  /-- Installed memory, if it is not what the model was sold with. -/
  memory : Option MemorySize := none
  /-- Frames are not held back to the pace of a real machine. -/
  turbo : Bool := false
  verbosity : Verbosity := default
  depth : Depth := default
  /-- The file with the firmware and, after it, BASIC. -/
  systemRom : Option String := none
  /-- The file with the disk operating system. -/
  amsdosRom : Option String := none
  expansionRoms : SlotFiles := []
  drive0 : Option String := none
  drive1 : Option String := none
  deriving DecidableEq, Repr, Inhabited

namespace Config

def memorySize (c : Config) : MemorySize := c.memory.getD c.model.defaultMemory

/-- The slot for the disk operating system. -/
def amsdosSlot : UInt8 := 7

/-- The highest slot that can be configured. -/
def lastSlot : UInt8 := 15

/-- What is said about a disk operating system or a disk that the model cannot
use. -/
def ignoring (c : Config) (topic : Topic) (path : String) : Notice :=
  ⟨.warn, topic, s!"{c.model.name} has no disc interface, ignoring {path}"⟩

/-- The slots as they will be filled. The disk operating system gets a slot of
its own unless the configuration puts something else there. -/
def slots (c : Config) : Except Error SlotFiles :=
  match c.expansionRoms.find? fun (slot, _) => lastSlot < slot with
  | some (slot, _) => .error (.config (.slotOutOfRange slot.toNat))
  | none => .ok <|
    match c.amsdosRom with
    | some path =>
      if c.model.hasDisc && (c.expansionRoms.lookup amsdosSlot).isNone then
        c.expansionRoms.insert amsdosSlot path
      else c.expansionRoms
    | none => c.expansionRoms

/-- What there is to say about filling them. -/
def slotNotices (c : Config) : List Notice :=
  match c.amsdosRom with
  | some path => if c.model.hasDisc then [] else [c.ignoring .config path]
  | none => []

end Config

end AmstradCpc
