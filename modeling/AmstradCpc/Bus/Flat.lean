/-
The simplest bus: 64K of memory without paging, and 64K ports that hold what
was last written to them. Every port access is kept in order, so that a
program's traffic can be looked at afterwards.
-/
import AmstradCpc.Bus
import AmstradCpc.Bytes

namespace AmstradCpc

theorem toNat_lt_memory (a : UInt16) : a.toNat < 65536 := a.toNat_lt

/-- One access to a port. -/
structure PortAccess where
  port : UInt16
  value : UInt8
  written : Bool
  deriving DecidableEq, Repr, Inhabited

structure FlatBus where
  memory : Block 65536
  ports : Block 65536
  /-- What an interrupting device puts on the data lines. -/
  vector : UInt8
  /-- Port accesses, oldest first. -/
  traffic : Array PortAccess

namespace FlatBus

/-- Memory holds zeros, and every port and the data lines read 0xFF. -/
def empty : FlatBus where
  memory := .fill _ 0
  ports := .fill _ 0xFF
  vector := 0xFF
  traffic := #[]

def peek (b : FlatBus) (a : UInt16) : UInt8 := b.memory.get a.toNat (toNat_lt_memory a)

def poke (b : FlatBus) (a : UInt16) (v : UInt8) : FlatBus :=
  { b with memory := b.memory.set a.toNat v (toNat_lt_memory a) }

def port (b : FlatBus) (p : UInt16) : UInt8 := b.ports.get p.toNat (toNat_lt_memory p)

def setPort (b : FlatBus) (p : UInt16) (v : UInt8) : FlatBus :=
  { b with ports := b.ports.set p.toNat v (toNat_lt_memory p) }

/-- Puts bytes into memory from `a` upwards, continuing at zero past the top. -/
def load (b : FlatBus) (a : UInt16) (bytes : List UInt8) : FlatBus :=
  match bytes with
  | [] => b
  | v :: rest => (b.poke a v).load (a + 1) rest

def note (b : FlatBus) (access : PortAccess) : FlatBus :=
  { b with traffic := b.traffic.push access }

instance : Bus FlatBus where
  fetch b a := (b.peek a, b)
  read b a := (b.peek a, b)
  write b a v := b.poke a v
  acknowledge b := (b.vector, b)
  input b p := let v := b.port p; (v, b.note ⟨p, v, false⟩)
  output b p v := (b.setPort p v).note ⟨p, v, true⟩

theorem peek_poke_self (b : FlatBus) (a : UInt16) (v : UInt8) : (b.poke a v).peek a = v :=
  Block.get_set_self ..

theorem peek_poke_other (b : FlatBus) {a c : UInt16} (v : UInt8) (ne : a ≠ c) :
    (b.poke a v).peek c = b.peek c :=
  Block.get_set_other _ _ (toNat_lt_memory a) (toNat_lt_memory c) fun h => ne (UInt16.toNat_inj.1 h)

end FlatBus

end AmstradCpc
