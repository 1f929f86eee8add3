/-
The record of a frame. While a frame runs, each raster line leaves behind what
is needed to paint it: the display controller's addresses as they were when the
line began, and the colours and the mode that the gate array had taken over at
the end of the sync pulse in the line before.
-/
import AmstradCpc.Crtc
import AmstradCpc.GateArray
import AmstradCpc.Video.Surface

namespace AmstradCpc

/-- What is recorded of a raster line. -/
structure Scanline where
  mode : UInt8 := 0
  /-- The inks of the sixteen pens and of the border. -/
  inks : Vector UInt8 17 := .replicate 17 0
  /-- The address of the first character. -/
  address : UInt16 := 0
  /-- The line within its character row. -/
  row : UInt8 := 0
  /-- Not a line of the upper or lower border. -/
  displayed : Bool := false
  /-- Characters between the left and the right border. -/
  columns : UInt8 := 0
  /-- The character at which the sync pulse begins. -/
  syncPosition : UInt8 := 0
  deriving DecidableEq, Inhabited

/-- Room for the lines of the longest frame. -/
def recordedLines : Nat := 312

structure Frame where
  /-- Raster lines in a frame. -/
  lines : Nat
  /-- The line that is running. -/
  index : Nat := 0
  /-- The line on which the last vertical sync began. -/
  vsyncLine : Nat := 0
  record : Vector Scanline recordedLines := .replicate recordedLines {}
  palette : Palette
  surface : Surface
  deriving Inhabited

namespace Frame

def initial (refresh : Refresh) (monitor : Monitor) (depth : Depth) : Frame :=
  { lines := refresh.lines, palette := .ofMonitor monitor depth, surface := .blank depth }

/-- Forgets the lines and blanks the picture. -/
def reset (f : Frame) : Frame :=
  { lines := f.lines, palette := f.palette, surface := .blank f.surface.depth }

/-- The length of a frame, which is at least one line and at most what there is
room for. -/
def length (f : Frame) : Nat := max 1 (min f.lines recordedLines)

theorem length_pos (f : Frame) : 0 < f.length := by unfold length; omega

theorem length_le (f : Frame) : f.length ≤ recordedLines := by
  have : 1 ≤ recordedLines := by decide
  unfold length
  omega

/-- Where line `index` is recorded; the lines wrap at the length of a frame. -/
def slot (f : Frame) (index : Nat) : Fin recordedLines :=
  ⟨index % f.length, Nat.lt_of_lt_of_le (Nat.mod_lt _ f.length_pos) f.length_le⟩

def modify (f : Frame) (index : Nat) (change : Scanline → Scanline) : Frame :=
  let slot := f.slot index
  { f with record := f.record.set slot (change (f.record.get slot)) slot.isLt }

/-- Records the addresses of the line that begins. -/
def beginLine (f : Frame) (c : Crtc) : Frame :=
  f.modify f.index fun line =>
    { line with
      address := c.rowAddress, row := c.scanline, displayed := c.rowDisplayed,
      columns := c.horizontalDisplayed, syncPosition := c.horizontalSyncPosition }

/-- Records the mode and the inks for the line after this one. -/
def latchColours (f : Frame) (g : GateArray) : Frame :=
  f.modify (f.index + 1) fun line => { line with mode := g.mode, inks := g.inks }

/-- The vertical sync begins on this line. -/
def markVsync (f : Frame) : Frame := { f with vsyncLine := f.index }

def endLine (f : Frame) : Frame := { f with index := f.index + 1 }

end Frame

end AmstradCpc
