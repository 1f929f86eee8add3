/-
From the record of a frame to its picture. Every raster line that is in view
gives two rows, the second one darker. A row is 48 characters wide, a character
sixteen pixels; where a line has no characters it shows the border.
-/
import AmstradCpc.Memory
import AmstradCpc.Video.Frame
import AmstradCpc.Video.Pixels

namespace AmstradCpc

/-- The address of the first of the two bytes of a character: `character` is
where the display controller reads, `row` the line within the row. -/
def videoAddress (character : UInt16) (row : UInt8) : UInt16 :=
  (character &&& 0x3000) <<< 2 ||| (row &&& 7).toUInt16 <<< 11 ||| (character &&& 0x03FF) <<< 1

namespace Scanline

/-- Pixels in a character. -/
def charWidth : Nat := 16

/-- Characters in a row of the picture. -/
def rowColumns : Nat := Surface.width / charWidth

/-- The picture begins so many characters before the sync position. -/
def leftOfSync : Nat := 50

/-- The character of the line that is at a column of the picture, if it is not
the border that is there. -/
def character? (line : Scanline) (column : Nat) : Option Nat :=
  let place := column + line.syncPosition.toNat
  if line.displayed && leftOfSync ≤ place && place - leftOfSync < line.columns.toNat then
    some (place - leftOfSync)
  else none

/-- The pen of a pixel has an ink; there are sixteen such pens. -/
def penInk (line : Scanline) (pen : UInt8) : UInt8 := line.inks[pen.toNat]?.getD 0

/-- Adds `count` pixels of one value. -/
def pushRun (out : Array UInt32) (v : UInt32) : Nat → Array UInt32
  | 0 => out
  | count + 1 => pushRun (out.push v) v count

/-- Adds the eight pixels of a byte. -/
def pushByte (line : Scanline) (shown : UInt8 → UInt32) (out : Array UInt32) (byte : UInt8) : Array UInt32 :=
  (PixelByte.pens line.mode byte).foldl
    (fun out pen => pushRun out (shown (line.penInk pen)) (PixelByte.width line.mode)) out

/-- Adds one row of the line. -/
def pushRow (line : Scanline) (m : Memory) (shown : UInt8 → UInt32) (out : Array UInt32) : Array UInt32 :=
  rowColumns.fold (fun column _ out =>
    match line.character? column with
    | none => pushRun out (shown line.inks[16]) charWidth
    | some c =>
      let address := videoAddress (line.address + c.toUInt16) line.row
      let out := pushByte line shown out (m.videoByte address)
      pushByte line shown out (m.videoByte (address + 1))) out

end Scanline

namespace Frame

/-- Lines in view. -/
def visibleLines : Nat := Surface.height / 2

/-- Lines from the vertical sync to the first one in view. -/
def vsyncToVisible : Nat := 28

/-- Lines that the frame has and that are in view. -/
def paintedLines (f : Frame) : Nat := min visibleLines f.length

/-- The lines in view can be numbered from the vertical sync on. -/
def canNumberLines (f : Frame) : Bool := f.vsyncLine + vsyncToVisible + f.paintedLines ≤ UInt64.size

/-- The line that is `v` lines below the first one in view. -/
def visibleLine (f : Frame) (v : Nat) : Scanline :=
  f.record.get (f.slot (f.vsyncLine + vsyncToVisible + v))

/-- The pixel of an ink, as this picture holds it. -/
def shown (f : Frame) (colours : Vector UInt32 32) (ink : UInt8) : UInt32 :=
  f.surface.depth.pixel (colours.get (inkIndex ink))

/-- The line whose border fills what a short frame leaves open. -/
def lastLine (f : Frame) : Scanline := f.visibleLine (f.paintedLines - 1)

/-- All pixels of the picture. -/
def paintedPixels (f : Frame) (m : Memory) : Array UInt32 :=
  let bright := f.shown f.palette.bright
  let dim := f.shown f.palette.dim
  let pixels := f.paintedLines.fold (fun v _ out =>
      let line := f.visibleLine v
      line.pushRow m dim (line.pushRow m bright out)) (.emptyWithCapacity (Surface.width * Surface.height))
  let rest := f.lastLine.inks[16]
  (visibleLines - f.paintedLines).fold (fun _ _ out =>
      Scanline.pushRun (Scanline.pushRun out (bright rest) Surface.width) (dim rest) Surface.width) pixels

/-- Paints what was recorded. -/
def paint (f : Frame) (m : Memory) : Frame :=
  { f with surface := { f.surface with pixels := f.paintedPixels m } }

end Frame

end AmstradCpc
