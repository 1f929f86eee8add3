/-
The DSK file format, in which disks are kept. A file opens with a block of 256
bytes about the disk, followed by one block for each formatted track: 256 bytes
about the track, then the data of its sectors. The standard variant has one
length for all tracks; the extended variant has a table of track lengths, in
units of 256 bytes, and a length for every sector. Disks are always written in
the extended variant.
-/
import AmstradCpc.Disk.Image

namespace AmstradCpc.Disk

/-- Why bytes are no disk. -/
inductive ParseError where
  | tooShort
  | badSignature
  /-- The block of a track is not labelled as one. -/
  | badTrack (index : Nat)
  /-- The data of a sector would begin past the end of the file. -/
  | sectorPastEnd (index : Nat)
  deriving DecidableEq, Repr

def ParseError.message : ParseError → String
  | .tooShort => "disk image shorter than its header"
  | .badSignature => "not a CPCEMU disk image"
  | .badTrack index => s!"malformed Track-Info block {index}"
  | .sectorPastEnd index => s!"sector data of track {index} begins past the end of the image"

namespace File

def standardSignature : ByteArray := "MV - CPCEMU".toUTF8
def extendedSignature : ByteArray := "EXTENDED CPC DSK File\r\nDisk-Info\r\n".toUTF8
def trackSignature : ByteArray := "Track-Info\r\n".toUTF8

/-- The program that a disk was written by; it is recorded in the file. -/
def creator : ByteArray := "emu198x-cpc".toUTF8

/-- Length of the block about the disk, and of the one about a track. -/
def headerSize : Nat := 0x100

/-- Sectors that a track block has room to describe. -/
def sectorSlots : Nat := 29

/-- Track lengths that the extended header has room for. -/
def lengthSlots : Nat := 204

/-! ## Reading -/

/-- Which of the two variants a file is. -/
inductive Variant where
  | standard
  | extended
  deriving DecidableEq, Repr

/-- Reads `count` sectors, described from `info` on, whose data starts at
`offset` of the file. A sector whose data is cut short ends in zeros. -/
def readSectors (file : ByteArray) (variant : Variant) (trackCode : UInt8) :
    (count info offset : Nat) → Option (List Sector)
  | 0, _, _ => some []
  | count + 1, info, offset =>
    if file.size < offset then none
    else
      let byte := fun i => byteAt file (info + i)
      let id : SectorId := ⟨byte 0, byte 1, byte 2, byte 3⟩
      let size := match variant with
        | .standard => sectorLength trackCode
        | .extended => wordAt file (info + 6)
      let length := match variant with
        | .standard => min (sectorLength id.sizeCode) size
        | .extended => size
      let sector : Sector := ⟨id, byte 4, byte 5, sliceOrZero file offset length⟩
      (readSectors file variant trackCode count (info + 8) (offset + size)).map (sector :: ·)

/-- Reads the track whose block starts at `start`, of which the first 256 bytes
are there. -/
def readTrack (file : ByteArray) (variant : Variant) (index start : Nat) : Except ParseError Track :=
  let byte := fun i => byteAt file (start + i)
  if file.extract start (start + trackSignature.size) != trackSignature then
    .error (.badTrack index)
  else
    let count := min (byte 0x15).toNat sectorSlots
    match readSectors file variant (byte 0x14) count (start + 0x18) (start + headerSize) with
    | some sectors => .ok ⟨byte 0x10, byte 0x11, byte 0x16, byte 0x17, sectors⟩
    | none => .error (.sectorPastEnd index)

/-- Reads the tracks numbered from `index` on. A length of zero stands for an
unformatted track; the file may end before the last track. -/
def readTracks (file : ByteArray) (variant : Variant) (length : Nat → Nat) :
    (remaining index start : Nat) → Except ParseError (List Track)
  | 0, _, _ => .ok []
  | remaining + 1, index, start =>
    if length index = 0 then readTracks file variant length remaining (index + 1) start
    else if file.size < start + headerSize then .ok []
    else do
      let track ← readTrack file variant index start
      let rest ← readTracks file variant length remaining (index + 1) (start + length index)
      return track :: rest

end File

open File in
/-- Reads a disk from the bytes of a file. -/
def Image.parse (file : ByteArray) : Except ParseError Image :=
  if file.size < headerSize then .error .tooShort
  else
    let read (variant : Variant) (length : Nat → Nat) : Except ParseError Image := do
      let sides := max (byteAt file 0x31) 1
      let count := (byteAt file 0x30).toNat * sides.toNat
      let tracks ← readTracks file variant length count 0 headerSize
      return { sides, tracks, dirty := false }
    if beginsWith file extendedSignature then
      read .extended fun index => (byteAt file (0x34 + index)).toNat * 0x100
    else if beginsWith file standardSignature then read .standard fun _ => wordAt file 0x32
    else .error .badSignature

/-! ## Writing -/

namespace File

/-- The first `n` bytes of a list, zeros standing in for those missing. -/
def field (n : Nat) (bytes : List UInt8) : ByteArray := sliceOrZero (byteList bytes) 0 n

/-- How a track block describes a sector; the length is a 16-bit word. -/
def sectorInfo (s : Sector) : List UInt8 :=
  [s.id.cylinder, s.id.head, s.id.record, s.id.sizeCode, s.status1, s.status2,
    s.data.size.toUInt8, (s.data.size / 256).toUInt8]

/-- The block of a track, filled up to a multiple of 256 bytes. -/
def trackBlock (t : Track) : ByteArray :=
  let code := match t.sectors with
    | [] => 2
    | s :: _ => s.id.sizeCode
  let about := sliceOrZero trackSignature 0 0x10 ++
    byteList [t.cylinder, t.side, 0, 0, code, t.sectors.length.toUInt8, t.gap, t.filler] ++
    field (sectorSlots * 8) (t.sectors.flatMap sectorInfo)
  padToMultiple 0x100 (t.sectors.foldl (fun out s => out ++ s.data) about)

end File

namespace Image

/-- One more than the highest cylinder. -/
def cylinders (d : Image) : Nat := d.tracks.foldl (fun n t => max n (t.cylinder.toNat + 1)) 0

/-- What lies at every place of the disk, in the order of the file: cylinder by
cylinder, and side by side in each. -/
def places (d : Image) : List (Option Track) :=
  (List.range d.cylinders).flatMap fun cylinder =>
    (List.range (max d.sides.toNat 1)).map fun side => d.track cylinder.toUInt8 side.toUInt8

open File in
/-- The disk as a file of the extended variant. -/
def toBytes (d : Image) : ByteArray :=
  let blocks := d.places.map (·.map trackBlock)
  let lengths := blocks.map fun
    | some block => (block.size / 0x100).toUInt8
    | none => 0
  let header := extendedSignature ++ sliceOrZero creator 0 14 ++
    byteList [d.cylinders.toUInt8, max d.sides 1, 0, 0] ++ field lengthSlots lengths
  blocks.foldl (fun out block => match block with
    | some block => out ++ block
    | none => out) header

end Image

/-- A file that is too short for its header is no disk. -/
theorem Image.parse_of_short {file : ByteArray} (h : file.size < File.headerSize) :
    Image.parse file = .error .tooShort := by simp [Image.parse, h]

end AmstradCpc.Disk
