/-
The memory chips: banks of RAM, the two ROMs that every machine has, and the
expansion ROMs. All are of 16K. Which of them the processor sees where is not
decided here.
-/
import AmstradCpc.Bytes

namespace AmstradCpc

/-- The bytes in a bank of RAM or in a ROM. -/
def bankSize : Nat := 0x4000

abbrev Bank := Block bankSize

/-- The place within its bank of a byte at `address`. -/
def bankOffset (address : UInt16) : Fin bankSize :=
  ⟨address.toNat % bankSize, Nat.mod_lt _ (by decide)⟩

/-- Which quarter of the processor's memory space an address is in. -/
def windowOf (address : UInt16) : Fin 4 :=
  ⟨address.toNat / bankSize, by
    have h := address.toNat_lt
    simp only [bankSize]
    omega⟩

namespace Bank

def zeroed : Bank := .fill bankSize 0

def read (b : Bank) (address : UInt16) : UInt8 := b.get (bankOffset address) (bankOffset address).isLt

def write (b : Bank) (address : UInt16) (v : UInt8) : Bank :=
  b.set (bankOffset address) v (bankOffset address).isLt

/-- The bank that holds exactly the bytes given, if there are as many as a bank
has. -/
def ofBytes? (data : ByteArray) : Option Bank :=
  if h : data.size = bankSize then some ⟨data, h⟩ else none

/-- Two banks from an image of both, if it has the right length. -/
def pairOfBytes? (data : ByteArray) : Option (Bank × Bank) :=
  if data.size = 2 * bankSize then
    some (.ofBytes bankSize data, .ofBytes bankSize (data.extract bankSize data.size))
  else none

/-- The bank with as many bytes of `data` as fit over its beginning. -/
def load (b : Bank) (data : ByteArray) : Bank :=
  ⟨overwriteStart b.bytes data, (size_overwriteStart ..).trans b.size_eq⟩

/-- The bank with `data` written into it from `offset` on. Behind the last byte of
a bank comes its first. -/
def writeAll (b : Bank) (offset : Nat) (data : ByteArray) : Bank :=
  (data.foldl (fun (b, address) v => (b.write address v, address + 1)) (b, offset.toUInt16)).1

end Bank

structure Memory where
  ram : Array Bank
  /-- The firmware. -/
  lowerRom : Bank
  /-- BASIC. -/
  upperRom : Bank
  /-- The expansion ROM in each slot. -/
  expansions : Vector (Option Bank) 256 := .replicate 256 none

namespace Memory

/-- `banks` banks of zeros, and no expansions. -/
def initial (banks : Nat) (lowerRom upperRom : Bank) : Memory :=
  { ram := .replicate banks .zeroed, lowerRom, upperRom }

def expansion (m : Memory) (slot : UInt8) : Option Bank := m.expansions.get ⟨slot.toNat, slot.toNat_lt⟩

def setExpansion (m : Memory) (slot : UInt8) (rom : Option Bank) : Memory :=
  { m with expansions := m.expansions.set slot.toNat rom slot.toNat_lt }

def kilobytes (m : Memory) : Nat := m.ram.size * 16

/-- A bank of RAM; one that is not there holds zeros. -/
def bank (m : Memory) (i : Nat) : Bank := m.ram[i]?.getD .zeroed

/-- Changes a bank of RAM, if it is there. -/
def modifyBank (m : Memory) (i : Nat) (change : Bank → Bank) : Memory :=
  { m with ram := m.ram.modify i change }

/-- Writes into a bank of RAM; a bank that is not there takes nothing. -/
def writeRam (m : Memory) (bank : Nat) (address : UInt16) (v : UInt8) : Memory :=
  m.modifyBank bank (·.write address v)

def clearRam (m : Memory) : Memory := { m with ram := m.ram.map fun _ => .zeroed }

/-- What the picture is made of: the first four banks, whatever the processor
sees. -/
def videoByte (m : Memory) (address : UInt16) : UInt8 :=
  match m.ram[(windowOf address).val]? with
  | some bank => bank.read address
  | none => 0xFF

/-! ## Banks after a write -/

theorem size_writeRam (m : Memory) (bank : Nat) (address : UInt16) (v : UInt8) :
    (m.writeRam bank address v).ram.size = m.ram.size := by simp [writeRam, modifyBank]

end Memory

end AmstradCpc
