/-
The gate array: the inks of the sixteen pens and of the border, the screen
mode, the enables of the two ROM areas, and the counter of lines that raises
the interrupts. All of it is written through one port, whose upper two bits
say what the rest means.
-/
import AmstradCpc.Word

namespace AmstradCpc

/-- The pen number that stands for the border. -/
def borderPen : Nat := 16

structure GateArray where
  /-- The pen whose ink is set next. -/
  pen : UInt8 := 0
  /-- The hardware colours of pens 0 to 15 and of the border. -/
  inks : Vector UInt8 17 := .replicate 17 0
  /-- Bits 1 and 0 are the screen mode; bit 2 switches the lower ROM off, and
  bit 3 the upper one. -/
  control : UInt8 := 0
  /-- Lines since the last interrupt. -/
  counter : UInt8 := 0
  /-- Lines left until the counter falls into step with the picture. -/
  delayed : UInt8 := 0
  /-- There were more lines than the counter can hold. -/
  overrun : Bool := false
  deriving DecidableEq, Inhabited

namespace GateArray

def mode (g : GateArray) : UInt8 := g.control &&& 3
def lowerRomEnabled (g : GateArray) : Bool := g.control &&& 0x04 == 0
def upperRomEnabled (g : GateArray) : Bool := g.control &&& 0x08 == 0

/-! ## Writing -/

def setPen (g : GateArray) (v : UInt8) : GateArray :=
  { g with pen := if v &&& 0x10 != 0 then borderPen.toUInt8 else v &&& 0x0F }

def setInk (g : GateArray) (v : UInt8) : GateArray :=
  { g with inks := g.inks.setIfInBounds g.pen.toNat (v &&& 0x1F) }

/-- Bit 4 also starts the line counter again. -/
def setControl (g : GateArray) (v : UInt8) : GateArray :=
  { g with control := v &&& 0x1F, counter := if v &&& 0x10 != 0 then 0 else g.counter }

/-- What a write asks of the rest of the machine. -/
inductive Request where
  | none
  /-- The ROM enables may have changed. -/
  | remap
  /-- The RAM configuration is kept outside the gate array. -/
  | configureRam (configuration : UInt8)
  deriving DecidableEq, Repr, Inhabited

def write (g : GateArray) (v : UInt8) : GateArray × Request :=
  match v >>> 6 with
  | 0 => (g.setPen v, .none)
  | 1 => (g.setInk v, .none)
  | 2 => (g.setControl v, .remap)
  | _ => (g, .configureRam v)

/-! ## Counting lines -/

/-- Lines between two interrupts. -/
def interruptLines : UInt8 := 52

/-- The end of a line's sync pulse: the gate array after it, and whether it
interrupts. The end of the count is looked at before the delayed restart, so a
line on which both fall interrupts once. A count that begins beyond the end goes
on until it overruns. -/
def hsyncEnds (g : GateArray) : GateArray × Bool :=
  let g := { g with overrun := g.overrun || g.counter == 0xFF }
  let count := g.counter + 1
  let full := count == interruptLines
  let count := if full then 0 else count
  if g.delayed = 0 then ({ g with counter := count }, full)
  else if g.delayed = 1 then ({ g with counter := 0, delayed := 0 }, full || 32 ≤ count)
  else ({ g with counter := count, delayed := g.delayed - 1 }, full)

/-- A new picture: the counter starts again two lines later. -/
def vsyncBegins (g : GateArray) : GateArray := { g with delayed := 2 }

/-- The processor accepts the interrupt. The next one is then at least 32 lines
away. -/
def acknowledge (g : GateArray) : GateArray := { g with counter := g.counter &&& 0x1F }

end GateArray

end AmstradCpc
