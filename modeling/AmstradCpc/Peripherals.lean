/-
What is behind the parallel interface: the sound chip, which in turn gives
access to the keyboard; the cassette; and a port of single lines, some of which
are straps on the board.
-/
import AmstradCpc.Audio.Wav
import AmstradCpc.Keyboard
import AmstradCpc.Ppi
import AmstradCpc.Psg

namespace AmstradCpc

/-- The levels of the single lines. -/
structure Signals where
  hsync : Bool := false
  vsync : Bool := false
  /-- The strap for the mains frequency. -/
  refresh : UInt8 := 1
  /-- The three straps for the name of the company. -/
  company : UInt8 := 7
  /-- High while no expansion is fitted. -/
  expansion : UInt8 := 1
  /-- High while the printer is busy. -/
  parallel : UInt8 := 1
  /-- What the cassette plays. -/
  cassette : UInt8 := 0
  deriving DecidableEq, Repr, Inhabited

/-- The lines as the eight bits of a port. -/
def Signals.toByte (s : Signals) : UInt8 :=
  (s.cassette &&& 1) <<< 7 ||| (s.parallel &&& 1) <<< 6 ||| (s.expansion &&& 1) <<< 5
    ||| (s.refresh &&& 1) <<< 4 ||| (s.company &&& 7) <<< 1 ||| bitIf s.vsync 0

/-- What two lines ask of the sound chip. -/
inductive PsgFunction where
  | inactive
  | read
  | write
  | select
  deriving DecidableEq, Repr, Inhabited

def PsgFunction.ofBits (v : UInt8) : PsgFunction :=
  match v &&& 3 with
  | 0 => .inactive
  | 1 => .read
  | 2 => .write
  | _ => .select

structure Peripherals where
  psg : Psg
  keyboard : Keyboard := {}
  signals : Signals := {}
  /-- The byte on its way to the sound chip. -/
  psgData : UInt8 := 0xFF
  psgFunction : PsgFunction := .inactive
  tapeMotor : Bool := false
  tapeWrite : Bool := false
  deriving Inhabited

namespace Peripherals

/-- The clock of the sound chip, per second. -/
def psgClock : UInt32 := 1000000

def initial (signals : Signals) : Peripherals :=
  { psg := .initial psgClock Wav.sampleRate, signals }

/-- Pressed keys stay pressed, and the lines keep their levels. -/
def reset (p : Peripherals) : Peripherals :=
  { psg := p.psg.reset, keyboard := { p.keyboard with line := 0 }, signals := p.signals }

/-- Carries out what is asked of the sound chip. Nothing is wired to its ports
that could be written to. -/
def drivePsg (p : Peripherals) : Peripherals :=
  match p.psgFunction with
  | .write => { p with psg := (p.psg.write p.psgData).1 }
  | .select => { p with psg := p.psg.select p.psgData }
  | .inactive => p
  | .read => p

/-- The levels on the ports of the sound chip: the first has the selected line
of the keyboard. -/
def psgLevel (p : Peripherals) : Psg.Port → UInt8
  | .a => p.keyboard.selected
  | .b => 0xFF

/-- The levels on the ports of the parallel interface. -/
def level (p : Peripherals) : Ppi.Port → UInt8
  | .a => if p.psgFunction = .read then p.psg.read p.psgLevel else 0xFF
  | .b => p.signals.toByte
  | .c => 0xFF

/-- Puts a byte on a port of the parallel interface. -/
def drive (p : Peripherals) (port : Ppi.Port) (v : UInt8) : Peripherals :=
  match port with
  | .a => { p with psgData := v }.drivePsg
  | .b => p
  | .c =>
    { p with
      keyboard := { p.keyboard with line := v &&& 0x0F }
      tapeMotor := bitOf v 4
      tapeWrite := bitOf v 5
      psgFunction := .ofBits (v >>> 6) }.drivePsg

/-- Puts bytes on ports, one after the other. -/
def driveAll (p : Peripherals) (writes : List (Ppi.Port × UInt8)) : Peripherals :=
  writes.foldl (fun p (port, v) => p.drive port v) p

end Peripherals

end AmstradCpc
