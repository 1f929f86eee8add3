/-
How a byte of the picture is made of pixels. The fewer colours a mode has, the
more pixels a byte holds. The bits of a pixel are not next to each other: they
are spread over the byte, so that a shift moves all pixels at once.
-/
import AmstradCpc.Word

namespace AmstradCpc.PixelByte

/-- Pixels in a byte. Only two bits of the mode are looked at; mode 3 is like
mode 1. -/
def count (mode : UInt8) : Nat :=
  match mode &&& 3 with
  | 0 => 2
  | 2 => 8
  | _ => 4

/-- Bits of a pixel. -/
def width (mode : UInt8) : Nat := 8 / count mode

/-- The pen of pixel `n` of a byte, the leftmost being pixel 0. -/
def pen (mode byte : UInt8) (n : Nat) : UInt8 :=
  let bit (top : UInt8) (place : UInt8) := bitIf (bitOf byte (top - n.toUInt8)) place
  match mode &&& 3 with
  | 0 => bit 7 0 ||| bit 3 1 ||| bit 5 2 ||| bit 1 3
  | 2 => bit 7 0
  | _ => bit 7 0 ||| bit 3 1

/-- The pens of all pixels, from the left. -/
def pens (mode byte : UInt8) : List UInt8 := (List.range (count mode)).map (pen mode byte)

/-- The byte with the bits of each pixel brought together, the leftmost pixel
in the lowest bits. -/
def gathered (mode byte : UInt8) : UInt8 :=
  (pens mode byte).foldr (fun pen rest => rest <<< (width mode).toUInt8 ||| pen) 0

end AmstradCpc.PixelByte
