/-
A bus that keeps a record of its cycles, oldest first. Recording changes
nothing that the processor can see.
-/
import AmstradCpc.Bus
import AmstradCpc.Text.Hex

namespace AmstradCpc

/-- One bus cycle with the data that went over it. -/
inductive BusCycle where
  | fetch (address : UInt16) (data : UInt8)
  | read (address : UInt16) (data : UInt8)
  | write (address : UInt16) (data : UInt8)
  | acknowledge (data : UInt8)
  | input (port : UInt16) (data : UInt8)
  | output (port : UInt16) (data : UInt8)
  deriving DecidableEq, Repr, Inhabited

namespace BusCycle

/-- The cycle takes something from memory. -/
def isRead : BusCycle → Bool
  | .fetch .. | .read .. => true
  | _ => false

/-- A letter for the kind of the cycle, the address if there is one, and the data. -/
def toText : BusCycle → String
  | .fetch a v => "M" ++ onBus a v
  | .read a v => "R" ++ onBus a v
  | .write a v => "W" ++ onBus a v
  | .input p v => "I" ++ onBus p v
  | .output p v => "O" ++ onBus p v
  | .acknowledge v => "A" ++ Text.hexLower 2 v.toNat
where
  /-- An address and the data that belong to it. -/
  onBus (address : UInt16) (data : UInt8) : String :=
    Text.hexLower 4 address.toNat ++ Text.hexLower 2 data.toNat

end BusCycle

structure Recorded (β : Type) where
  bus : β
  cycles : Array BusCycle

namespace Recorded

variable {β : Type} [Bus β]

instance : Bus (Recorded β) where
  fetch | ⟨bus, cycles⟩, a => let (v, bus) := Bus.fetch bus a; (v, ⟨bus, cycles.push (.fetch a v)⟩)
  read | ⟨bus, cycles⟩, a => let (v, bus) := Bus.read bus a; (v, ⟨bus, cycles.push (.read a v)⟩)
  write | ⟨bus, cycles⟩, a, v => ⟨Bus.write bus a v, cycles.push (.write a v)⟩
  acknowledge
    | ⟨bus, cycles⟩ => let (v, bus) := Bus.acknowledge bus; (v, ⟨bus, cycles.push (.acknowledge v)⟩)
  input | ⟨bus, cycles⟩, p => let (v, bus) := Bus.input bus p; (v, ⟨bus, cycles.push (.input p v)⟩)
  output | ⟨bus, cycles⟩, p, v => ⟨Bus.output bus p v, cycles.push (.output p v)⟩

/-- The same bus with nothing on record. -/
def forget (r : Recorded β) : Recorded β := { r with cycles := #[] }

end Recorded

end AmstradCpc
