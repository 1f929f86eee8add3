/-
The commands of the floppy disk controller. The low five bits of the first byte
name the command and so how many bytes it has; the second byte selects a unit
and a head wherever a drive is addressed.
-/
import AmstradCpc.Word

namespace AmstradCpc.Fdc

inductive Command where
  | readTrack
  | specify
  | senseDriveStatus
  | writeData
  | readData
  | recalibrate
  | senseInterruptStatus
  | writeDeletedData
  | readId
  | readDeletedData
  | formatTrack
  | seek
  | version
  | invalid
  deriving DecidableEq, Repr, Inhabited

namespace Command

/-- The upper three bits, which would choose multi-track transfer, recording
density and the skipping of deleted data, have no effect. -/
def ofByte (v : UInt8) : Command :=
  match v &&& 0x1F with
  | 0x02 => .readTrack
  | 0x03 => .specify
  | 0x04 => .senseDriveStatus
  | 0x05 => .writeData
  | 0x06 => .readData
  | 0x07 => .recalibrate
  | 0x08 => .senseInterruptStatus
  | 0x09 => .writeDeletedData
  | 0x0A => .readId
  | 0x0C => .readDeletedData
  | 0x0D => .formatTrack
  | 0x0F => .seek
  | 0x10 => .version
  | _ => .invalid

/-- Bytes of the whole command, the first one included. -/
def length : Command → Nat
  | .readTrack | .writeData | .readData | .writeDeletedData | .readDeletedData => 9
  | .formatTrack => 6
  | .specify | .seek => 3
  | .senseDriveStatus | .recalibrate | .readId => 2
  | .senseInterruptStatus | .version | .invalid => 1

theorem length_pos (c : Command) : 0 < c.length := by cases c <;> decide

end Command

/-- Where a command addresses a drive: bits 1 and 0 are the unit, bit 2 is the
head. -/
structure Select where
  bits : UInt8
  deriving DecidableEq, Repr, Inhabited

namespace Select

def unit (s : Select) : Nat := (s.bits &&& 3).toNat
def head (s : Select) : UInt8 := s.bits >>> 2 &&& 1

/-- Unit and head, as the first status byte reports them. -/
def status (s : Select) : UInt8 := s.bits &&& 7

theorem unit_lt (s : Select) : s.unit < 4 := by
  have h : s.unit = s.bits.toNat % 4 := by
    simp only [unit, UInt8.toNat_and]
    exact Nat.and_two_pow_sub_one_eq_mod s.bits.toNat 2
  omega

end Select

/-- The parameters of a transfer of sectors. -/
structure Transfer where
  select : Select
  cylinder : UInt8
  head : UInt8
  /-- The sector that comes next. -/
  record : UInt8
  sizeCode : UInt8
  /-- The last sector. -/
  lastRecord : UInt8
  /-- The length of a sector whose size code is zero. -/
  shortLength : UInt8
  /-- The transfer is of sectors marked as deleted. -/
  deleted : Bool
  deriving DecidableEq, Repr, Inhabited

namespace Transfer

/-- Bytes that each sector of this transfer takes. -/
def sectorLength (t : Transfer) : Nat :=
  if t.sizeCode = 0 then t.shortLength.toNat else 128 <<< min t.sizeCode.toNat 6

end Transfer

/-- A complete command with its parameters. -/
inductive Request where
  | specify
  | senseDrive (select : Select)
  | seek (select : Select) (cylinder : UInt8)
  | senseInterrupt
  | read (t : Transfer)
  | readTrack (t : Transfer)
  | write (t : Transfer)
  | readId (select : Select)
  | format (select : Select) (sizeCode count filler : UInt8)
  | version
  | invalid
  deriving DecidableEq, Repr, Inhabited

/-- The command that a full row of bytes stands for. Recalibrating is seeking
cylinder 0. -/
def Request.ofBytes (bytes : List UInt8) : Request :=
  let transfer (deleted : Bool) (f : Transfer → Request) (parameters : List UInt8) : Request :=
    match parameters with
    | [select, c, h, r, n, eot, _, dtl] => f ⟨⟨select⟩, c, h, r, n, eot, dtl, deleted⟩
    | _ => .invalid
  match bytes with
  | [] => .invalid
  | first :: parameters =>
    match Command.ofByte first, parameters with
    | .specify, _ => .specify
    | .senseDriveStatus, [select] => .senseDrive ⟨select⟩
    | .recalibrate, [select] => .seek ⟨select⟩ 0
    | .seek, [select, cylinder] => .seek ⟨select⟩ cylinder
    | .senseInterruptStatus, _ => .senseInterrupt
    | .readData, ps => transfer false .read ps
    | .readDeletedData, ps => transfer true .read ps
    | .readTrack, ps => transfer false .readTrack ps
    | .writeData, ps => transfer false .write ps
    | .writeDeletedData, ps => transfer true .write ps
    | .readId, [select] => .readId ⟨select⟩
    | .formatTrack, [select, n, count, _, filler] => .format ⟨select⟩ n count filler
    | .version, _ => .version
    | _, _ => .invalid

end AmstradCpc.Fdc
