/-
The memory map: what the processor reads and writes in each quarter of its
memory space. Writes always go to RAM. Reads may see a ROM instead, the
firmware in the lowest quarter and BASIC or an expansion in the highest. The
map is worked out anew when the RAM configuration, the selected expansion or
the enables of the ROMs change, and stays as it is in between.
-/
import AmstradCpc.Memory
import AmstradCpc.Notice
import AmstradCpc.Text.Hex
import AmstradCpc.Word

namespace AmstradCpc

/-- What is read in one quarter. -/
inductive Source where
  | ram (bank : Nat)
  | lowerRom
  | upperRom
  | expansion (slot : UInt8)
  deriving DecidableEq, Repr, Inhabited

/-- The banks that are mapped when nothing else is asked for. -/
def firstBanks : Vector Nat 4 := #v[0, 1, 2, 3]

/-- The eight ways to arrange banks. Numbers from four on stand for banks of
the selected group. -/
def arrangements : Vector (Vector Nat 4) 8 := #v[
  firstBanks,
  #v[0, 1, 2, 7],
  #v[4, 5, 6, 7],
  #v[0, 3, 2, 7],
  #v[0, 4, 2, 3],
  #v[0, 5, 2, 3],
  #v[0, 6, 2, 3],
  #v[0, 7, 2, 3]]

structure Pager where
  /-- The RAM configuration: bits 2 to 0 are an arrangement, bits 5 to 3 a group
  of four banks. -/
  ramConfig : UInt8 := 0
  /-- The selected expansion ROM. -/
  romSelect : UInt8 := 0
  reads : Vector Source 4 := firstBanks.map .ram
  /-- The bank that is written in each quarter. -/
  writes : Vector Nat 4 := firstBanks
  deriving DecidableEq, Inhabited

namespace Pager

/-- The banks that a RAM configuration asks for. -/
def banksOf (config : UInt8) : Vector Nat 4 :=
  let group := (config.toNat / 8 % 8) * 4
  (arrangements.get ⟨config.toNat % 8, Nat.mod_lt _ (by decide)⟩).map fun bank =>
    if 4 ≤ bank then bank + group else bank

/-- All banks that the configuration asks for are installed. -/
def installed (config : UInt8) (banks : Nat) : Bool := (banksOf config).all (· < banks)

/-- The banks that are written. A machine of 64K has no choice, and a
configuration that needs more memory than there is changes nothing. -/
def writesFor (p : Pager) (banks : Nat) : Vector Nat 4 :=
  if banks < 8 then firstBanks
  else if installed p.ramConfig banks then banksOf p.ramConfig
  else p.writes

/-- What is read where `banks` are written; bits 2 and 3 of `control` switch
the ROMs off. -/
def readsFor (p : Pager) (m : Memory) (control : UInt8) (banks : Vector Nat 4) : Vector Source 4 :=
  let lowest := if bitOf control 2 then .ram banks[0] else .lowerRom
  let highest :=
    if bitOf control 3 then .ram banks[3]
    else if (m.expansion p.romSelect).isSome then .expansion p.romSelect
    else .upperRom
  #v[lowest, .ram banks[1], .ram banks[2], highest]

/-- Works the map out anew. -/
def select (p : Pager) (m : Memory) (control : UInt8) : Pager :=
  let banks := p.writesFor m.ram.size
  { p with writes := banks, reads := p.readsFor m control banks }

/-- What is to be said about a configuration that the memory is too small for. -/
def complaint (p : Pager) (m : Memory) : Option Notice :=
  if m.ram.size < 8 || installed p.ramConfig m.ram.size then none
  else some ⟨.warn, .pager, "RAM configuration 0x" ++ Text.hexLower 2 p.ramConfig.toNat
    ++ s!" needs more than {m.kilobytes}K, mapping unchanged"⟩

/-- The map that the machine starts with. -/
def reset (m : Memory) (control : UInt8) : Pager := ({} : Pager).select m control

/-- The bank a source stands for. A bank of RAM that has been taken out reads
as the first one, and an expansion as BASIC. -/
def bank (m : Memory) : Source → Bank
  | .ram bank => m.ram[bank]?.getD (m.bank 0)
  | .lowerRom => m.lowerRom
  | .upperRom => m.upperRom
  | .expansion slot => (m.expansion slot).getD m.upperRom

/-- There is something to read: a bank of RAM that has been taken out has one to
stand in for it, unless there is no RAM at all. -/
def canRead (p : Pager) (m : Memory) (address : UInt16) : Bool :=
  match p.reads.get (windowOf address) with
  | .ram _ => !m.ram.isEmpty
  | _ => true

def read (p : Pager) (m : Memory) (address : UInt16) : UInt8 :=
  (bank m (p.reads.get (windowOf address))).read address

def write (p : Pager) (m : Memory) (address : UInt16) (v : UInt8) : Memory :=
  m.writeRam (p.writes.get (windowOf address)) address v

end Pager

end AmstradCpc
