/-
The display controller (a 6845). It counts characters along a line, lines down
a row of characters and rows down the picture, raises the two sync signals at
the counts that its registers name, and gives the memory address of what the
beam shows. It is clocked once per character.
-/
import AmstradCpc.Word

namespace AmstradCpc

namespace Crtc

/-- What is fixed about a register: the bits it has, and which way a program
gets at it. -/
structure RegisterInfo where
  name : String
  mask : UInt8
  readable : Bool := false
  writable : Bool := true
  deriving DecidableEq, Repr, Inhabited

def registerTable : Vector RegisterInfo 18 := #v[
  { name := "horizontal-total", mask := 0xFF },
  { name := "horizontal-displayed", mask := 0xFF },
  { name := "horizontal-sync-position", mask := 0xFF },
  { name := "sync-width", mask := 0xFF },
  { name := "vertical-total", mask := 0x7F },
  { name := "vertical-total-adjust", mask := 0x1F },
  { name := "vertical-displayed", mask := 0x7F },
  { name := "vertical-sync-position", mask := 0x7F },
  { name := "interlace-mode-and-skew", mask := 0x03 },
  { name := "maximum-scanline-address", mask := 0x1F },
  { name := "cursor-start", mask := 0x7F },
  { name := "cursor-end", mask := 0x1F },
  { name := "start-address-high", mask := 0x3F },
  { name := "start-address-low", mask := 0xFF },
  { name := "cursor-high", mask := 0x3F, readable := true },
  { name := "cursor-low", mask := 0xFF, readable := true },
  { name := "light-pen-high", mask := 0x3F, readable := true, writable := false },
  { name := "light-pen-low", mask := 0xFF, readable := true, writable := false }]

/-- The picture that the machine starts with: 40 by 25 characters of 8 lines. -/
def initialRegisters : Vector UInt8 18 :=
  #v[63, 40, 46, 0x8E, 38, 0, 25, 30, 0, 7, 0, 0, 0x30, 0, 0, 0, 0, 0]

end Crtc

structure Crtc where
  registers : Vector UInt8 18 := Crtc.initialRegisters
  /-- The register that reads and writes go to. -/
  address : UInt8 := 0
  /-- The character within the line. -/
  hCounter : UInt8 := 0
  /-- The character row within the picture. -/
  vCounter : UInt8 := 0
  /-- The line within the character row. -/
  scanline : UInt8 := 0
  /-- Characters left of the horizontal sync. -/
  hsyncCounter : UInt8 := 0
  /-- Lines left of the vertical sync. -/
  vsyncCounter : UInt8 := 0
  hsync : Bool := false
  vsync : Bool := false
  deriving DecidableEq, Inhabited

namespace Crtc

/-- The controller with another value in one of its counters or sync signals.
There are none of other names. -/
def assign (c : Crtc) (name : String) (v : UInt8) : Crtc :=
  match name with
  | "address" => { c with address := v }
  | "h_counter" => { c with hCounter := v }
  | "v_counter" => { c with vCounter := v }
  | "scanline" => { c with scanline := v }
  | "hsync_counter" => { c with hsyncCounter := v }
  | "vsync_counter" => { c with vsyncCounter := v }
  | "hsync" => { c with hsync := v != 0 }
  | "vsync" => { c with vsync := v != 0 }
  | _ => c

/-! ## Registers -/

def horizontalTotal (c : Crtc) : UInt8 := c.registers[0]
def horizontalDisplayed (c : Crtc) : UInt8 := c.registers[1]
def horizontalSyncPosition (c : Crtc) : UInt8 := c.registers[2]
def syncWidth (c : Crtc) : UInt8 := c.registers[3]
def verticalTotal (c : Crtc) : UInt8 := c.registers[4]
def verticalDisplayed (c : Crtc) : UInt8 := c.registers[6]
def verticalSyncPosition (c : Crtc) : UInt8 := c.registers[7]
def maximumScanline (c : Crtc) : UInt8 := c.registers[9]
def startAddressHigh (c : Crtc) : UInt8 := c.registers[12]
def startAddressLow (c : Crtc) : UInt8 := c.registers[13]

/-- The register numbered `i`, whoever asks; zero where there is none. -/
def peek (c : Crtc) (i : Nat) : UInt8 := c.registers[i]?.getD 0

/-- Sets the register numbered `i`, whoever asks, keeping the bits it has. -/
def poke (c : Crtc) (i : Nat) (v : UInt8) : Crtc :=
  match registerTable[i]? with
  | some info => { c with registers := c.registers.setIfInBounds i (v &&& info.mask) }
  | none => c

/-- Selects a register; only five bits are kept. -/
def select (c : Crtc) (v : UInt8) : Crtc := { c with address := v &&& 0x1F }

/-- Writes the selected register, if a program may. -/
def write (c : Crtc) (v : UInt8) : Crtc :=
  match registerTable[c.address.toNat]? with
  | some info => if info.writable then c.poke c.address.toNat v else c
  | none => c

/-- Reads the selected register, if a program may. Otherwise the bus keeps the
value `floating` that is on it. -/
def read (c : Crtc) (floating : UInt8) : UInt8 :=
  match registerTable[c.address.toNat]? with
  | some info => if info.readable then c.peek c.address.toNat else floating
  | none => floating

/-! ## Addresses -/

/-- The address of the first character of the picture, 14 bits. -/
def startAddress (c : Crtc) : UInt16 := joinBytes c.startAddressHigh c.startAddressLow

/-- The address of the first character of the current row. -/
def rowAddress (c : Crtc) : UInt16 :=
  (c.startAddress + c.vCounter.toUInt16 * c.horizontalDisplayed.toUInt16) &&& 0x3FFF

/-- The beam is between the top and the bottom border. -/
def rowDisplayed (c : Crtc) : Bool := c.vCounter < c.verticalDisplayed

/-! ## Counting -/

/-- A sync width of zero stands for sixteen. -/
def width (nibble : UInt8) : UInt8 := if nibble = 0 then 16 else nibble

/-- Ends a sync pulse whose count has run out. -/
def stepHsync (c : Crtc) : Crtc :=
  if 0 < c.hsyncCounter then
    let left := c.hsyncCounter - 1
    { c with hsyncCounter := left, hsync := c.hsync && left != 0 }
  else c

def stepVsync (c : Crtc) : Crtc :=
  if 0 < c.vsyncCounter then
    let left := c.vsyncCounter - 1
    { c with vsyncCounter := left, vsync := c.vsync && left != 0 }
  else c

/-- The row counter wraps only at the exact count, so a total that is lowered
below it takes effect after the counter has gone all the way round. -/
def nextRow (c : Crtc) : Crtc :=
  let v := c.vCounter + 1
  { c with scanline := 0, vCounter := if v = c.verticalTotal + 1 then 0 else v }

def nextLine (c : Crtc) : Crtc :=
  let c := c.stepVsync
  let line := c.scanline + 1
  if line = c.maximumScanline + 1 then c.nextRow else { c with scanline := line }

def nextChar (c : Crtc) : Crtc :=
  let h := c.hCounter + 1
  if h.toNat = c.horizontalTotal.toNat + 1 then { c with hCounter := 0 }.nextLine
  else { c with hCounter := h }

def startHsync (c : Crtc) : Crtc :=
  if !c.hsync && c.hCounter == c.horizontalSyncPosition then
    { c with hsync := true, hsyncCounter := width (c.syncWidth &&& 0x0F) }
  else c

/-- The vertical sync looks at the row alone: a pulse that ends in its own row
starts again at once. -/
def startVsync (c : Crtc) : Crtc :=
  if !c.vsync && c.vCounter == c.verticalSyncPosition then
    { c with vsync := true, vsyncCounter := width (c.syncWidth >>> 4) }
  else c

/-- Goes on by one character. -/
def clock (c : Crtc) : Crtc := c.stepHsync.nextChar.startHsync.startVsync

/-- A level that goes up or down. -/
inductive Edge where
  | rising
  | falling
  deriving DecidableEq, Repr, Inhabited

/-- What happens to a level between two moments. -/
def Edge.between (before after : Bool) : Option Edge :=
  match before, after with
  | false, true => some .rising
  | true, false => some .falling
  | _, _ => none

/-! ## Reading what was written -/

theorem peek_poke_self (c : Crtc) {i : Nat} (h : i < 18) (v : UInt8) :
    (c.poke i v).peek i = v &&& (registerTable[i]).mask := by
  simp [peek, poke, h]

theorem peek_poke_other (c : Crtc) {i j : Nat} (ne : i ≠ j) (v : UInt8) :
    (c.poke i v).peek j = c.peek j := by
  unfold poke
  split
  · simp [peek, Vector.getElem?_setIfInBounds_ne ne]
  · rfl

end Crtc

end AmstradCpc
