/-
A floppy disk as the drive sees it: tracks, each with the sectors found on it
in the order in which they pass under the head. A disk remembers whether it has
changed since it was last saved.
-/
import AmstradCpc.Bytes

namespace AmstradCpc.Disk

/-- The four bytes recorded in front of a sector. They need not agree with
where the sector lies. -/
structure SectorId where
  cylinder : UInt8
  head : UInt8
  record : UInt8
  /-- The length is 128 bytes times two to this power. -/
  sizeCode : UInt8
  deriving DecidableEq, Repr, Inhabited

structure Sector where
  id : SectorId
  /-- What the controller reported in its first and second status byte when the
  sector was read from the original medium. -/
  status1 : UInt8
  status2 : UInt8
  data : ByteArray
  deriving DecidableEq, Inhabited

structure Track where
  cylinder : UInt8
  side : UInt8
  gap : UInt8
  filler : UInt8
  sectors : List Sector
  deriving DecidableEq, Inhabited

structure Image where
  sides : UInt8
  tracks : List Track
  /-- Changed since it was last saved. -/
  dirty : Bool
  deriving DecidableEq, Inhabited

/-- The length that a size code stands for. Codes above six mean the longest. -/
def sectorLength (sizeCode : UInt8) : Nat := 128 <<< min sizeCode.toNat 6

theorem sectorLength_le (sizeCode : UInt8) : sectorLength sizeCode ≤ 8192 := by
  rw [sectorLength, Nat.shiftLeft_eq]
  exact Nat.mul_le_mul_left 128 (Nat.pow_le_pow_right (by decide) (Nat.min_le_right ..))

/-- The bit of the second status byte that marks deleted data. -/
def deletedMark : UInt8 := 0x40

/-- A sector whose data was marked as deleted when it was written. -/
def Sector.deleted (s : Sector) : Bool := s.status2 &&& deletedMark != 0

/-- Replaces the beginning of the data, and the deleted mark. -/
def Sector.overwrite (s : Sector) (data : ByteArray) (deleted : Bool) : Sector :=
  { s with
    data := overwriteStart s.data data
    status2 := if deleted then s.status2 ||| deletedMark else s.status2 &&& ~~~deletedMark }

/-- A sector is asked for by the cylinder and record number of its ID. -/
def Sector.answersTo (s : Sector) (cylinder record : UInt8) : Bool :=
  s.id.cylinder == cylinder && s.id.record == record

def Track.liesAt (t : Track) (cylinder side : UInt8) : Bool :=
  t.cylinder == cylinder && t.side == side

namespace Image

/-- The first track at a place of the disk. -/
def track (d : Image) (cylinder side : UInt8) : Option Track :=
  d.tracks.find? (·.liesAt cylinder side)

/-- The first sector on the track at `(cylinder, side)` whose ID has the given
cylinder and record number. -/
def sector (d : Image) (cylinder side idCylinder record : UInt8) : Option Sector :=
  (d.track cylinder side).bind fun t => t.sectors.find? (·.answersTo idCylinder record)

/-- Changes the first item that a condition holds of, if there is one. -/
def modifyFirst? {α : Type} (f : α → Option α) : List α → Option (List α)
  | [] => none
  | a :: rest =>
    match f a with
    | some a => some (a :: rest)
    | none => (modifyFirst? f rest).map (a :: ·)

/-- Writes to a sector; nothing if no track at that place holds it. -/
def writeSector (d : Image) (cylinder side idCylinder record : UInt8) (data : ByteArray)
    (deleted : Bool) : Option Image :=
  let onSector (s : Sector) :=
    if s.answersTo idCylinder record then some (s.overwrite data deleted) else none
  let onTrack (t : Track) :=
    if t.liesAt cylinder side then
      (modifyFirst? onSector t.sectors).map fun sectors => { t with sectors }
    else none
  (modifyFirst? onTrack d.tracks).map fun tracks => { d with tracks, dirty := true }

/-- The order of tracks on a disk: by cylinder, then by side. -/
def trackBefore (a b : Track) : Bool :=
  a.cylinder < b.cylinder || (a.cylinder == b.cylinder && a.side ≤ b.side)

/-- A sector of filler bytes as formatting leaves it. -/
def blankSector (filler : UInt8) (id : SectorId) : Sector where
  id := id
  status1 := 0
  status2 := 0
  data := byteRun (sectorLength id.sizeCode) filler

/-- The gap between sectors that formatting leaves. -/
def formatGap : UInt8 := 0x4E

/-- The number of sides is a byte, so the last side that can be there is 254. -/
def canFormat (side : UInt8) : Bool := side < 0xFF

/-- Replaces the first track at a place by freshly formatted sectors, or adds
one where there was none. -/
def formatTrack (d : Image) (cylinder side : UInt8) (ids : List SectorId) (filler : UInt8) : Image :=
  let fresh : Track := ⟨cylinder, side, formatGap, filler, ids.map (blankSector filler)⟩
  let tracks :=
    (modifyFirst? (fun t => if t.liesAt cylinder side then some fresh else none) d.tracks).getD
      ((d.tracks ++ [fresh]).mergeSort trackBefore)
  { sides := max d.sides (side + 1), tracks, dirty := true }

def markClean (d : Image) : Image := { d with dirty := false }

end Image

/-! ## Blank disks -/

/-- The two layouts that the disk system formats. -/
inductive Format where
  /-- Sectors C1 to C9. -/
  | data
  /-- Sectors 41 to 49, with two tracks kept for the system. -/
  | system
  deriving DecidableEq, Repr, Inhabited

namespace Format

def firstRecord : Format → UInt8
  | .data => 0xC1
  | .system => 0x41

def name : Format → String
  | .data => "Data"
  | .system => "System"

/-- Consecutive sectors are kept apart on the track: 1 6 2 7 3 8 4 9 5. -/
def interleave : List UInt8 := [0, 5, 1, 6, 2, 7, 3, 8, 4]

def filler : UInt8 := 0xE5

/-- The sector IDs of one cylinder. -/
def ids (f : Format) (cylinder : UInt8) : List SectorId :=
  interleave.map fun i => ⟨cylinder, 0, f.firstRecord + i, 2⟩

end Format

/-- A disk of forty cylinders on one side, every sector blank. -/
def Image.formatted (f : Format) : Image :=
  let blank : Image := { sides := 1, tracks := [], dirty := false }
  ((List.range 40).foldl
    (fun d c => d.formatTrack c.toUInt8 0 (f.ids c.toUInt8) Format.filler) blank).markClean

/-! ## Looking up what was written -/

theorem modifyFirst?_eq_none {α : Type} {f : α → Option α} {l : List α} :
    Image.modifyFirst? f l = none ↔ ∀ a ∈ l, f a = none := by
  induction l with
  | nil => simp [Image.modifyFirst?]
  | cons a rest ih => cases h : f a <;> simp [Image.modifyFirst?, h, ih]

theorem Sector.size_overwrite (s : Sector) (data : ByteArray) (deleted : Bool) :
    (s.overwrite data deleted).data.size = s.data.size := size_overwriteStart ..

theorem Sector.id_overwrite (s : Sector) (data : ByteArray) (deleted : Bool) :
    (s.overwrite data deleted).id = s.id := rfl

end AmstradCpc.Disk
