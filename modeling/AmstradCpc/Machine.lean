/-
The machine. The display controller sets the pace: it is clocked once for each
of the 64 characters of a raster line, after which the processor has four
T-states and the sound chip one clock. When all lines of a frame are through,
the drives are clocked and the picture is painted from what was recorded.
-/
import AmstradCpc.Board
import AmstradCpc.Cpu
import AmstradCpc.Keyboard.HostKeys
import AmstradCpc.Video.Paint

namespace AmstradCpc

structure Machine where
  cpu : Cpu
  board : Board
  frame : Frame
  model : Model
  layout : Layout
  /-- Frames since the machine was built. -/
  frameCount : UInt64 := 0

namespace Machine

/-- Resets every chip. Memory, disks and pressed keys stay. -/
def reset (m : Machine) : Machine :=
  { m with cpu := m.cpu.reset, board := m.board.reset, frame := m.frame.reset }

def resetNotice : Notice := ⟨.trace, .machine, "machine reset"⟩

def modifyBoard (m : Machine) (change : Board → Board) : Machine := { m with board := change m.board }

def setSignals (m : Machine) (change : Signals → Signals) : Machine :=
  m.modifyBoard fun b => { b with
    peripherals := { b.peripherals with signals := change b.peripherals.signals } }

/-- Lets the processor work with the board. -/
def withBench {α : Type} (m : Machine) (journal : Journal)
    (work : Cpu → Bench → α × Cpu × Bench) : α × Machine × Journal :=
  match m with
  | { cpu, board, frame, model, layout, frameCount } =>
    let (a, cpu, bench) := work cpu ⟨board, journal⟩
    (a, { cpu, board := bench.board, frame, model, layout, frameCount }, bench.journal)

/-! ## The beam -/

/-- The vertical sync changes. Its beginning is where the next picture is
counted from. -/
def vsyncEdge (m : Machine) (edge : Crtc.Edge) : Machine :=
  let m := m.setSignals ({ · with vsync := edge == .rising })
  match edge with
  | .falling => m
  | .rising =>
    { m with
      board := { m.board with gateArray := m.board.gateArray.vsyncBegins }
      frame := m.frame.markVsync }

/-- The horizontal sync changes. At its end the gate array counts the line, and
the colours for the next line are settled. -/
def hsyncEdge (m : Machine) (edge : Crtc.Edge) : Machine :=
  let m := m.setSignals ({ · with hsync := edge == .rising })
  match edge with
  | .rising => m
  | .falling =>
    let (gateArray, interrupts) := m.board.gateArray.hsyncEnds
    { m with
      board := { m.board with gateArray }
      frame := m.frame.latchColours gateArray
      cpu := if interrupts then m.cpu.raiseInt else m.cpu }

/-- Clocks the display controller, and passes on what its sync signals do. -/
def clockBeam (m : Machine) : Machine :=
  let before := m.board.crtc
  let crtc := before.clock
  let m := { m with board := { m.board with crtc } }
  let m := match Crtc.Edge.between before.vsync crtc.vsync with
    | some edge => m.vsyncEdge edge
    | none => m
  match Crtc.Edge.between before.hsync crtc.hsync with
  | some edge => m.hsyncEdge edge
  | none => m

/-- What is said when the vertical sync begins. -/
def beamNotices (m : Machine) : List Notice :=
  if !m.board.crtc.vsync && m.board.crtc.clock.vsync then
    [⟨.trace, .frame, s!"vsync on line {m.frame.index}"⟩]
  else []

/-! ## A frame -/

/-- T-states in the time of a character. -/
def charStates : UInt32 := 4

/-- Characters in a raster line, the borders and the sync pulse included. -/
def charsPerLine : Nat := 64

/-- One clock for the sound chip. -/
def clockSound (m : Machine) : Machine :=
  m.modifyBoard fun b => { b with
    peripherals := { b.peripherals with psg := b.peripherals.psg.clock } }

/-- The time of one character. -/
def clockChar (m : Machine) (journal : Journal) : Machine × Journal :=
  let journal := journal ++ m.beamNotices
  let m := m.clockBeam
  let ((), m, journal) := m.withBench journal fun cpu bench => ((), cpu.clock bench charStates)
  (m.clockSound, journal)

/-- The time of so many characters. -/
def clockChars : Nat → Machine → Journal → Machine × Journal
  | 0, m, journal => (m, journal)
  | n + 1, m, journal =>
    let (m, journal) := m.clockChar journal
    clockChars n m journal

/-- One raster line. -/
def clockLine (m : Machine) (journal : Journal) : Machine × Journal :=
  let m := { m with frame := m.frame.beginLine m.board.crtc }
  let (m, journal) := clockChars charsPerLine m journal
  ({ m with frame := m.frame.endLine }, journal)

def clockLines : Nat → Machine → Journal → Machine × Journal
  | 0, m, journal => (m, journal)
  | n + 1, m, journal =>
    let (m, journal) := m.clockLine journal
    clockLines n m journal

/-- One frame. -/
def clockFrame (m : Machine) (journal : Journal) : Machine × Journal :=
  let m := { m with frame := { m.frame with index := 0 } }
  let (m, journal) := clockLines m.frame.lines m journal
  let journal := journal ++ m.board.drives.clockNotices
  ({ m with
    board := { m.board with drives := m.board.drives.clock }
    frame := m.frame.paint m.board.memory
    frameCount := m.frameCount + 1 }, journal)

/-- The sound since it was last taken. -/
def takeAudio (m : Machine) : Array Psg.Sample × Machine :=
  let (samples, psg) := m.board.peripherals.psg.takeBuffer
  (samples, { m with board := { m.board with peripherals := { m.board.peripherals with psg } } })

/-! ## Keys -/

def modifyKeyboard (m : Machine) (change : Keyboard → Keyboard) : Machine :=
  let p := m.board.peripherals
  { m with board := { m.board with peripherals := { p with keyboard := change p.keyboard } } }

def setKey (m : Machine) (key : Key) (down : Bool) : Machine := m.modifyKeyboard (·.setKey key down)

def releaseAllKeys (m : Machine) : Machine := m.modifyKeyboard (·.releaseAll)

/-- Presses or releases the key that a host key stands for, if there is one. -/
def hostKey? (m : Machine) (name : String) (down : Bool) : Option Machine :=
  (m.layout.key? name).map fun key => m.setKey key down

/-- What is said about a host key that stands for no key. -/
def unmappedNotice (name : String) : Notice :=
  ⟨.debug, .machine, "unmapped host key " ++ Text.quoted name⟩

end Machine

end AmstradCpc
