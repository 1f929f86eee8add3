/-
Picture files. They hold four bytes for each pixel, and nothing in them is
compressed: the data stream of a file is a sequence of stored blocks. A reader
beside the writer takes such files apart again.
-/
import AmstradCpc.Bytes
import AmstradCpc.Video.Surface

namespace AmstradCpc

namespace Png

/-- A picture, row by row, with red, green, blue and opacity for each pixel. -/
structure Image where
  width : Nat
  height : Nat
  rgba : ByteArray
  deriving DecidableEq

/-! ## Numbers and check values -/

/-- A number in four bytes, the highest first. -/
def longBytes (v : UInt32) : ByteArray :=
  byteList [(v >>> 24).toUInt8, (v >>> 16).toUInt8, (v >>> 8).toUInt8, v.toUInt8]

/-- A number in two bytes, the lowest first. -/
def wordBytes (v : UInt16) : ByteArray := byteList [v.toUInt8, (v >>> 8).toUInt8]

/-- The divisor of the cyclic check value, its highest power last. -/
def polynomial : UInt32 := 0xEDB88320

/-- One bit of the cyclic check value. -/
def crcBit (c : UInt32) : UInt32 := if c &&& 1 = 1 then polynomial ^^^ c >>> 1 else c >>> 1

/-- What a byte does to the cyclic check value. -/
def crcTable : Vector UInt32 256 :=
  .ofFn fun i => crcBit (crcBit (crcBit (crcBit (crcBit (crcBit (crcBit (crcBit i.val.toUInt32)))))))

def crcByte (c : UInt32) (v : UInt8) : UInt32 :=
  crcTable.get (c.toUInt8 ^^^ v).toFin ^^^ c >>> 8

/-- The cyclic check value of a chunk. -/
def crc (data : ByteArray) : UInt32 := data.foldl crcByte 0xFFFFFFFF ^^^ 0xFFFFFFFF

/-- The largest prime that a word holds. -/
def adlerModulus : UInt32 := 65521

/-- The two running sums of a data stream. -/
def adlerByte (sums : UInt32 × UInt32) (v : UInt8) : UInt32 × UInt32 :=
  let a := (sums.1 + v.toUInt32) % adlerModulus
  (a, (sums.2 + a) % adlerModulus)

/-- The check value of a data stream. -/
def adler (data : ByteArray) : UInt32 :=
  let (a, b) := data.foldl adlerByte (1, 0)
  b <<< 16 ||| a

/-! ## Writing -/

/-- The most that a stored block holds. -/
def blockSize : Nat := 0xFFFF

/-- A stored block: whether it is the last one, its size, the size with every
bit turned, and the data. -/
def storedBlock (last : Bool) (data : ByteArray) : ByteArray :=
  let size := data.size.toUInt16
  byteList [if last then 1 else 0] ++ wordBytes size ++ wordBytes (~~~size) ++ data

/-- Stored blocks for the data from `start` on. -/
def storedBlocks (data out : ByteArray) (start : Nat) : ByteArray :=
  if blockSize < data.size - start then
    storedBlocks data (out ++ storedBlock false (data.extract start (start + blockSize)))
      (start + blockSize)
  else out ++ storedBlock true (data.extract start data.size)
termination_by data.size - start
decreasing_by simp only [blockSize] at *; omega

/-- A data stream of stored blocks. -/
def stream (data : ByteArray) : ByteArray :=
  storedBlocks data (byteList [0x78, 0x01]) 0 ++ longBytes (adler data)

/-- The rows of a picture. Each begins with a byte that says that its pixels
are given as they are. -/
def rows (i : Image) : ByteArray :=
  let size := 4 * i.width
  i.height.fold (fun y _ out => out.push 0 ++ i.rgba.extract (y * size) ((y + 1) * size)) ∅

def chunk (name : String) (data : ByteArray) : ByteArray :=
  let body := name.toUTF8 ++ data
  longBytes data.size.toUInt32 ++ body ++ longBytes (crc body)

def signature : ByteArray := byteList [0x89, 0x50, 0x4E, 0x47, 0x0D, 0x0A, 0x1A, 0x0A]

/-- Eight bits for each of four channels, in rows that follow each other. -/
def format : ByteArray := byteList [8, 6, 0, 0, 0]

/-- The whole file. -/
def encode (i : Image) : ByteArray :=
  signature ++ chunk "IHDR" (longBytes i.width.toUInt32 ++ longBytes i.height.toUInt32 ++ format)
    ++ chunk "IDAT" (stream (rows i)) ++ chunk "IEND" ∅

/-! ## Reading -/

/-- The number in four bytes, the highest first. -/
def longAt (data : ByteArray) (place : Nat) : Nat :=
  let digit i := (byteAt data (place + i)).toNat
  ((digit 0 * 256 + digit 1) * 256 + digit 2) * 256 + digit 3

/-- The data of the chunk at a place. -/
def chunkAt? (file : ByteArray) (place : Nat) (name : String) : Option ByteArray :=
  let size := longAt file place
  let body := file.extract (place + 4) (place + 8 + size)
  if place + 12 + size ≤ file.size && beginsWith body name.toUTF8
      && longAt file (place + 8 + size) == (crc body).toNat then
    some (body.extract 4 body.size)
  else none

/-- Adds the data of the stored blocks from `place` on; the result is also
where they end. -/
def unstore? (data out : ByteArray) (place : Nat) : Option (ByteArray × Nat) :=
  let size := wordAt data (place + 1)
  let next := place + 5 + size
  if _ : next ≤ data.size then
    let out := out ++ data.extract (place + 5) next
    match byteAt data place with
    | 0 => unstore? data out next
    | 1 => some (out, next)
    | _ => none
  else none
termination_by data.size - place
decreasing_by omega

/-- The data of a stream of stored blocks. -/
def unstream? (data : ByteArray) : Option ByteArray := do
  let (out, place) ← unstore? data ∅ 2
  if longAt data place == (adler out).toNat then some out else none

/-- The pixels of so many rows of `size` bytes each. -/
def unrow? (data : ByteArray) (size height : Nat) : Option ByteArray :=
  if data.size = height * (size + 1) then
    height.foldM (fun y _ out =>
      let place := y * (size + 1)
      if byteAt data place = 0 then some (out ++ data.extract (place + 1) (place + 1 + size)) else none) ∅
  else none

/-- Takes apart a file that `encode` wrote. -/
def decode? (file : ByteArray) : Option Image := do
  if !beginsWith file signature then none
  let header ← chunkAt? file 8 "IHDR"
  if header.extract 8 header.size != format then none
  let data ← chunkAt? file 33 "IDAT"
  let width := longAt header 0
  let height := longAt header 4
  return { width, height, rgba := ← unrow? (← unstream? data) (4 * width) height }

end Png

/-- The file of a picture. -/
def Surface.toPng (s : Surface) : ByteArray := Png.encode ⟨width, height, s.toRgba⟩

end AmstradCpc
