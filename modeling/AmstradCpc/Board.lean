/-
Everything but the processor: memory, chips and drives, and how a port address
reaches them. Each device looks at one or two address lines and is selected
while they are low, so one access may reach several devices, or none. What is
read from no device is 0xFF.
-/
import AmstradCpc.Bus
import AmstradCpc.Crtc
import AmstradCpc.Drives
import AmstradCpc.GateArray
import AmstradCpc.Memory.Pager
import AmstradCpc.Peripherals

namespace AmstradCpc

structure Board where
  memory : Memory
  pager : Pager := {}
  gateArray : GateArray := {}
  crtc : Crtc := {}
  ppi : Ppi := {}
  peripherals : Peripherals
  drives : Drives := .initial
  /-- The drives are connected. -/
  hasDisc : Bool := true
  /-- The byte that was last sent to the printer. -/
  printer : UInt8 := 0

namespace Board

/-- Works the memory map out anew. -/
def remap (b : Board) : Board := { b with pager := b.pager.select b.memory b.gateArray.control }

def initial (memory : Memory) (signals : Signals) (hasDisc : Bool) : Board :=
  ({ memory, peripherals := .initial signals, hasDisc } : Board).remap

/-- Resets every chip. Memory, disks and pressed keys stay. -/
def reset (b : Board) : Board :=
  { b with
    pager := .reset b.memory ({} : GateArray).control
    gateArray := {}
    crtc := {}
    ppi := {}
    peripherals := b.peripherals.reset
    drives := b.drives.reset
    printer := 0 }

/-- What the processor sees at an address. -/
def peek (b : Board) (address : UInt16) : UInt8 := b.pager.read b.memory address

def writeMemory (b : Board) (address : UInt16) (v : UInt8) : Board :=
  { b with memory := b.pager.write b.memory address v }

/-! ## Ports -/

/-- An address line is low. -/
def low (port line : UInt16) : Bool := port >>> line &&& 1 == 0

/-- The two address lines that tell the registers of a device apart. -/
def register (port : UInt16) : UInt8 := (port >>> 8 &&& 3).toUInt8

/-- The drives are selected by two lines at once. -/
def selectsDrives (b : Board) (port : UInt16) : Bool := low port 10 && low port 7 && b.hasDisc

/-- What is selected in the drives. -/
inductive DriveRegister where
  | motor
  | status
  | data
  deriving DecidableEq, Repr, Inhabited

def driveRegister (port : UInt16) : DriveRegister :=
  if low port 8 then .motor else if low port 0 then .status else .data

/-! ## Writing -/

def writeGateArray (b : Board) (v : UInt8) : Board :=
  let (gateArray, request) := b.gateArray.write v
  let b := { b with gateArray }
  match request with
  | .none => b
  | .remap => b.remap
  | .configureRam c => { b with pager := { b.pager with ramConfig := c &&& 0x3F } }.remap

def writeCrtc (b : Board) (register v : UInt8) : Board :=
  match register with
  | 0 => { b with crtc := b.crtc.select v }
  | 1 => { b with crtc := b.crtc.write v }
  | _ => b

def selectRom (b : Board) (v : UInt8) : Board :=
  { b with pager := { b.pager with romSelect := v } }.remap

def writePpi (b : Board) (register v : UInt8) : Board :=
  let (ppi, writes) := b.ppi.write register v
  { b with ppi, peripherals := b.peripherals.driveAll writes }

def writeDrives (b : Board) (register : DriveRegister) (v : UInt8) : Board :=
  match register with
  | .motor => { b with drives := b.drives.setMotor (bitOf v 0) }
  | .status => b
  | .data => { b with drives := { b.drives with controller := b.drives.controller.write v } }

/-- Writes to every device that a port address selects. -/
def output (b : Board) (port : UInt16) (v : UInt8) : Board :=
  let b := if low port 15 then b.writeGateArray v else b
  let b := if low port 14 then b.writeCrtc (register port) v else b
  let b := if low port 13 then b.selectRom v else b
  let b := if low port 12 then { b with printer := v } else b
  let b := if low port 11 then b.writePpi (register port) v else b
  if b.selectsDrives port then b.writeDrives (driveRegister port) v else b

/-! ## Reading -/

/-- The last device that is selected decides what is read. -/
def input (b : Board) (port : UInt16) : UInt8 × Board :=
  let v := 0xFF
  let v := if low port 14 && register port == 3 then b.crtc.read v else v
  let v := if low port 11 && register port != 3 then b.ppi.read b.peripherals.level (register port) else v
  if b.selectsDrives port then
    match driveRegister port with
    | .motor => (v, b)
    | .status => (b.drives.controller.mainStatus, b)
    | .data =>
      let (v, controller) := b.drives.controller.read
      (v, { b with drives := { b.drives with controller } })
  else (v, b)

/-- The gate array takes note that an interrupt is accepted. Nothing drives the
data lines. -/
def acknowledge (b : Board) : UInt8 × Board := (0, { b with gateArray := b.gateArray.acknowledge })

/-! ## Notices -/

def portNotice (what : String) (port : UInt16) (text : String) : Notice :=
  ⟨.warn, .bus, what ++ "(0x" ++ Text.hexLower 4 port.toNat ++ "): " ++ text⟩

/-- What is said when the memory map is worked out. -/
def remapNotices (b : Board) : List Notice := (b.pager.complaint b.memory).toList

/-- What is said about reading a port. -/
def inputNotices (b : Board) (port : UInt16) : List Notice :=
  let say (condition : Bool) (text : String) := if condition then [portNotice "iorq_rd" port text] else []
  say (low port 15) "gate array is write only"
    ++ say (low port 14 && register port == 2) "crtc status not supported"
    ++ say (low port 14 && register port < 2) "crtc register is write only"
    ++ say (low port 13) "rom select is write only"
    ++ say (low port 12) "printer port is write only"
    ++ say (low port 11 && register port == 3) "ppi control is write only"
    ++ say (b.selectsDrives port && driveRegister port == .motor) "fdc motor latch is write only"

/-- What is said about writing to a port. -/
def outputNotices (b : Board) (port : UInt16) (v : UInt8) : List Notice :=
  let say (condition : Bool) (text : String) := if condition then [portNotice "iorq_wr" port text] else []
  let gate := low port 15
  let after := if gate then b.writeGateArray v else b
  (if gate && 0x80 ≤ v then after.remapNotices else [])
    ++ say (low port 14 && register port == 2) "crtc function not supported"
    ++ say (low port 14 && register port == 3) "crtc status is read only"
    ++ (if low port 13 then after.remapNotices else [])
    ++ (if b.selectsDrives port && driveRegister port == .motor then b.drives.motorNotices (bitOf v 0)
      else [])

end Board

/-- The board while the processor works with it, and what is said meanwhile. -/
structure Bench where
  board : Board
  journal : Journal

instance : Bus Bench where
  fetch bench address := (bench.board.peek address, bench)
  read bench address := (bench.board.peek address, bench)
  write bench address v := { bench with board := bench.board.writeMemory address v }
  acknowledge bench :=
    let (v, board) := bench.board.acknowledge
    (v, { bench with board })
  input bench port :=
    let notices := bench.board.inputNotices port
    let (v, board) := bench.board.input port
    (v, { board, journal := bench.journal ++ notices })
  output bench port v :=
    let notices := bench.board.outputNotices port v
    { board := bench.board.output port v, journal := bench.journal ++ notices }

end AmstradCpc
