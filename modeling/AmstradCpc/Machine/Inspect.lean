/-
The machine's properties: those of the processor under a name of their own, the
state of the chips, and every byte that the processor sees.
-/
import AmstradCpc.Cpu.Inspect
import AmstradCpc.Machine

namespace AmstradCpc.Machine

/-- The number of a register, 0 to 17. -/
def registerIndex? (text : String) : Option (Fin 18) :=
  match Text.number? 10 UInt64.size text with
  | some n => if h : n < 18 then some ⟨n, h⟩ else none
  | none => none

/-- An address: in base sixteen after one of the usual marks, otherwise in base
ten. -/
def address? (text : String) : Option UInt16 :=
  let digits := match text.toList with
    | '0' :: 'x' :: rest => (16, rest)
    | '0' :: 'X' :: rest => (16, rest)
    | '$' :: rest => (16, rest)
    | rest => (10, rest)
  (Text.number? digits.1 0x10000 (String.ofList digits.2)).map Nat.toUInt16

def long (n : Nat) : Value := .long n.toUInt32

def crtc (path : String) (read : Crtc → Value) : Property Machine :=
  .plain ("crtc." ++ path) fun m => read m.board.crtc

def gateArray (path : String) (read : GateArray → Value) : Property Machine :=
  .plain ("vga." ++ path) fun m => read m.board.gateArray

def pager (path : String) (read : Pager → Value) : Property Machine :=
  .plain ("pager." ++ path) fun m => read m.board.pager

def frameValue (path : String) (read : Frame → Nat) : Property Machine :=
  .plain ("frame." ++ path) fun m => long (read m.frame)

def drive (path : String) (read : Drives → Value) : Property Machine :=
  .plain ("fdc." ++ path) fun m => read m.board.drives

instance : Inspectable Machine where
  properties := [
    .family "cpu." "z80_paths" fun m rest => Inspectable.query m.cpu rest,
    crtc "address" (·.address),
    crtc "h_counter" (·.hCounter),
    crtc "v_counter" (·.vCounter),
    crtc "scanline" (·.scanline),
    crtc "hsync" (·.hsync),
    crtc "vsync" (·.vsync),
    crtc "start_address" (·.startAddress),
    .family "crtc.r" "0-17" fun m rest => (registerIndex? rest).map fun i => m.board.crtc.peek i,
    gateArray "pen" (·.pen),
    gateArray "rmr" (·.control),
    gateArray "mode" (·.mode),
    gateArray "counter" (·.counter),
    gateArray "delayed" (·.delayed),
    gateArray "inks" fun g => .series (g.inks.toList.map .byte),
    pager "ram_conf" (·.ramConfig),
    pager "rom_conf" (·.romSelect),
    pager "banks" fun p => .series (p.writes.toList.map fun bank => .byte bank.toUInt8),
    frameValue "index" (·.index),
    frameValue "lines" (·.lines),
    frameValue "vsync_line" (·.vsyncLine),
    .plain "frame.count" (·.frameCount),
    drive "motor" (·.controller.motor),
    drive "status" (·.controller.mainStatus),
    drive "ticks" (·.controller.ticks),
    drive "drive0" fun d => (d.file? 0).getD "",
    drive "drive1" fun d => (d.file? 1).getD "",
    .family "memory." "address" fun m rest => (address? rest).map fun a => m.board.peek a,
    .plain "machine" (·.model.name)]

end AmstradCpc.Machine
