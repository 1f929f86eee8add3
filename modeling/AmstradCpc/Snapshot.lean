/-
Snapshots: the state of a machine in a file. A header of 256 bytes holds the
registers of all chips, each at a fixed place; the banks of RAM follow. A
snapshot is looked through before anything is changed, so one that cannot be
loaded changes nothing.
-/
import AmstradCpc.Machine

namespace AmstradCpc.Snapshot

def signature : ByteArray := "MV - SNA".toUTF8

def headerSize : Nat := 0x100

/-- The version that is written. Earlier ones end before the state of the
drives, the printer and the interrupt. -/
def version : UInt8 := 3

/-! Places in the header. -/

def versionPlace : Nat := 0x10
def sizePlace : Nat := 0x6B
def motorPlace : Nat := 0x9C
def cylindersPlace : Nat := 0x9D
def printerPlace : Nat := 0xA1
def delayedPlace : Nat := 0xB2
def counterPlace : Nat := 0xB3
def interruptPlace : Nat := 0xB4

/-! ## Writing -/

def zeros (count : Nat) : List UInt8 := List.replicate count 0

/-- A word in two bytes, the lowest first. -/
def wordBytes (w : UInt16) : List UInt8 := [lowByte w, highByte w]

def flagByte (b : Bool) : UInt8 := if b then 1 else 0

/-- The registers of the processor. -/
def cpuBytes (r : Cpu.Registers) : List UInt8 :=
  [r.f.toByte, r.a, r.c, r.b, r.e, r.d, r.l, r.h, r.r, r.i, flagByte r.iff1, flagByte r.iff2]
    ++ wordBytes r.ix ++ wordBytes r.iy ++ wordBytes r.sp ++ wordBytes r.pc
    ++ [r.im, r.f'.toByte, r.a', r.c', r.b', r.e', r.d', r.l', r.h']

/-- The registers of the other chips. -/
def chipBytes (b : Board) : List UInt8 :=
  [b.gateArray.pen] ++ b.gateArray.inks.toList
    ++ [0x80 ||| b.gateArray.control, 0xC0 ||| b.pager.ramConfig, b.crtc.address]
    ++ b.crtc.registers.toList
    ++ [b.pager.romSelect, b.ppi.portA, b.ppi.portB, b.ppi.portC, b.ppi.control,
      b.peripherals.psg.selected]
    ++ b.peripherals.psg.registers.toList

def header (m : Machine) : List UInt8 :=
  let b := m.board
  let f := b.drives.controller
  signature.toList ++ zeros 8 ++ [version] ++ cpuBytes m.cpu.regs ++ chipBytes b
    ++ wordBytes b.memory.kilobytes.toUInt16 ++ [m.model.snapshotCode] ++ zeros 46
    ++ [flagByte f.motor, f.cylinder 0, f.cylinder 1, f.cylinder 2, f.cylinder 3, b.printer]
    ++ zeros 16 ++ [b.gateArray.delayed, b.gateArray.counter, flagByte m.cpu.intLatch] ++ zeros 75

/-- The whole file. -/
def save (m : Machine) : ByteArray :=
  m.board.memory.ram.foldl (fun out bank => out ++ bank.bytes) (byteList (header m))

/-! ## Looking through -/

/-- The number of banks in a snapshot, if a machine with so much memory can
take it. -/
def validate (data : ByteArray) (installed : Nat) : Except SnapshotError Nat :=
  if data.size < headerSize then
    if beginsWith data signature || data.size < signature.size then
      .error (.truncated headerSize data.size)
    else .error .badSignature
  else if !beginsWith data signature then .error .badSignature
  else
    let kilobytes := wordAt data sizePlace
    let expected := headerSize + kilobytes * 1024
    if kilobytes % 16 ≠ 0 then .error (.memorySize kilobytes)
    else if installed < kilobytes then .error (.tooLarge kilobytes installed)
    else if data.size < expected then .error (.truncated expected data.size)
    else .ok (kilobytes / 16)

/-! ## Loading -/

def wordOf (data : ByteArray) (place : Nat) : UInt16 := joinBytes (byteAt data (place + 1)) (byteAt data place)

/-- The registers of the processor; those that a snapshot does not have are as
after a reset. -/
def registersOf (data : ByteArray) : Cpu.Registers :=
  let byte := byteAt data
  { Cpu.Registers.initial with
    f := .ofByte (byte 0x11), a := byte 0x12, c := byte 0x13, b := byte 0x14, e := byte 0x15,
    d := byte 0x16, l := byte 0x17, h := byte 0x18, r := byte 0x19, i := byte 0x1A,
    iff1 := bitOf (byte 0x1B) 0, iff2 := bitOf (byte 0x1C) 0,
    ix := wordOf data 0x1D, iy := wordOf data 0x1F, sp := wordOf data 0x21, pc := wordOf data 0x23,
    im := byte 0x25 &&& 3,
    f' := .ofByte (byte 0x26), a' := byte 0x27, c' := byte 0x28, b' := byte 0x29, e' := byte 0x2A,
    d' := byte 0x2B, l' := byte 0x2C, h' := byte 0x2D }

def loadGateArray (data : ByteArray) (g : GateArray) : GateArray :=
  let g := g.setPen (byteAt data 0x2E)
  { g with
    inks := .ofFn fun pen => byteAt data (0x2F + pen) &&& 0x1F
    control := byteAt data 0x40 &&& 0x1F }

def loadCrtc (data : ByteArray) (c : Crtc) : Crtc :=
  (List.range 18).foldl (fun c i => c.poke i (byteAt data (0x43 + i))) (c.select (byteAt data 0x42))

def ppiOf (data : ByteArray) : Ppi :=
  { portA := byteAt data 0x56, portB := byteAt data 0x57, portC := byteAt data 0x58,
    control := byteAt data 0x59 }

def loadPsg (data : ByteArray) (p : Psg) : Psg :=
  (List.range 16).foldl (fun p i => p.poke i (byteAt data (0x5B + i))) (p.select (byteAt data 0x5A))

/-- What the parallel interface drives is taken over as its ports say, whatever
their directions are, and asks nothing of the sound chip. -/
def loadPeripherals (data : ByteArray) (p : Peripherals) : Peripherals :=
  let portC := byteAt data 0x58
  { p with
    psg := loadPsg data p.psg
    keyboard := { p.keyboard with line := portC &&& 0x0F }
    psgData := byteAt data 0x56
    psgFunction := .ofBits (portC >>> 6)
    tapeMotor := bitOf portC 4
    tapeWrite := bitOf portC 5 }

/-- The first banks are those of the snapshot, the others are cleared. -/
def loadMemory (data : ByteArray) (banks : Nat) (m : Memory) : Memory :=
  { m with ram := m.ram.mapIdx fun i _ =>
      if i < banks then
        .ofBytes bankSize (data.extract (headerSize + i * bankSize) (headerSize + (i + 1) * bankSize))
      else .zeroed }

/-- The state that only snapshots of the latest version have. -/
def hasDriveState (data : ByteArray) : Bool := version ≤ byteAt data versionPlace

def motorOf (data : ByteArray) : Bool := bitOf (byteAt data motorPlace) 0

def loadDrives (data : ByteArray) (d : Drives) : Drives :=
  let d := d.setMotor (motorOf data)
  let seek (f : Fdc) (unit : Nat) := f.setCylinder unit (byteAt data (cylindersPlace + unit))
  { d with controller := (List.range 4).foldl seek d.controller }

def loadDriveState (data : ByteArray) (m : Machine) : Machine :=
  { m with
    cpu := if byteAt data interruptPlace != 0 then m.cpu.raiseInt else m.cpu
    board := { m.board with
      drives := loadDrives data m.board.drives
      printer := byteAt data printerPlace
      gateArray := { m.board.gateArray with
        delayed := byteAt data delayedPlace
        counter := byteAt data counterPlace &&& 0x3F } } }

/-- The machine with the state of a snapshot, all but the memory map. -/
def loadState (data : ByteArray) (banks : Nat) (m : Machine) : Machine :=
  let b := m.board
  let m := { m with
    cpu := { m.cpu.reset with regs := registersOf data }
    board := { b with
      memory := loadMemory data banks b.memory
      pager := { b.pager with ramConfig := byteAt data 0x41 &&& 0x3F, romSelect := byteAt data 0x55 }
      gateArray := loadGateArray data b.gateArray
      crtc := loadCrtc data b.crtc
      ppi := ppiOf data
      peripherals := loadPeripherals data b.peripherals } }
  if hasDriveState data then loadDriveState data m else m

/-- Loads a snapshot. -/
def load (data : ByteArray) (m : Machine) : Except SnapshotError Machine := do
  let banks ← validate data m.board.memory.kilobytes
  let m := loadState data banks m
  return { m with board := m.board.remap }

/-- Loads a snapshot; the machine is reset if it cannot take it. -/
def loadOrReset (data : ByteArray) (m : Machine) : Except SnapshotError Unit × Machine :=
  match load data m with
  | .ok m => (.ok (), m)
  | .error e => (.error e, m.reset)

/-- What is said when a snapshot is loaded. -/
def loadNotices (data : ByteArray) (m : Machine) : List Notice :=
  match load data m with
  | .ok after =>
    (if hasDriveState data then m.board.drives.motorNotices (motorOf data) else [])
      ++ after.board.remapNotices ++ [⟨.info, .machine, "snapshot loaded"⟩]
  | .error _ => [Machine.resetNotice]

end AmstradCpc.Snapshot
