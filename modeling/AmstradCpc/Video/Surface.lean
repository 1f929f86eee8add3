/-
The picture as it is shown: 768 by 576 pixels, row by row.
-/
import AmstradCpc.Video.Palette

namespace AmstradCpc

/-- The value that a pixel of this depth holds. -/
def Depth.pixel (d : Depth) (v : UInt32) : UInt32 :=
  match d with
  | .eight => v &&& 0xFF
  | .sixteen => v &&& 0xFFFF
  | .thirtyTwo => v

structure Surface where
  depth : Depth
  pixels : Array UInt32
  deriving Inhabited

namespace Surface

def width : Nat := 768
def height : Nat := 576

/-- A picture whose pixels are all zero. -/
def blank (depth : Depth) : Surface := { depth, pixels := .replicate (width * height) 0 }

/-- The pixel at a place; zero below the last row. A place right of a row is one
of the next row. -/
def pixel (s : Surface) (x y : Nat) : UInt32 := s.pixels[y * width + x]?.getD 0

/-- The pixels of row `y`. -/
def row (s : Surface) (y : Nat) : Array UInt32 := .ofFn fun x : Fin width => s.pixel x y

/-- Four bytes for each pixel: red, green, blue, and an opacity that is full. -/
def toRgba (s : Surface) : ByteArray :=
  s.pixels.foldl (fun out pixel =>
    let c := s.depth.format.decode pixel
    (((out.push c.red).push c.green).push c.blue).push 0xFF) (ByteArray.emptyWithCapacity (4 * width * height))

end Surface

end AmstradCpc
