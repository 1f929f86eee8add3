/-
The floppy disk controller. A program talks to it through two registers: the
main status register says which way the data register goes next, and the data
register takes a command byte by byte, then carries the data of the transfer,
then gives the result. Four drives can be attached. Heads move at once, so the
only time that passes is the one a motor needs to reach its speed.
-/
import AmstradCpc.Disk.Image
import AmstradCpc.Fdc.Command

namespace AmstradCpc

open Disk (Image Sector SectorId)
open Fdc (Command Select Transfer Request)

namespace Fdc

/-- A drive, the disk in it, and where its head stands. -/
structure Drive where
  disk : Option Image := none
  cylinder : UInt8 := 0
  deriving DecidableEq, Inhabited

/-- What the controller is doing, with all that it needs to go on. -/
inductive Phase where
  /-- Waiting for a command. -/
  | idle
  /-- Part of a command has come. -/
  | command (received : List UInt8)
  /-- Data is read out from position `next` on; the result follows. -/
  | reading (data : ByteArray) (next : Nat) (result : List UInt8)
  /-- The data of a sector is coming in. -/
  | writing (t : Transfer) (received : ByteArray)
  /-- The sector IDs of a track to be formatted are coming in. -/
  | formatting (select : Select) (count filler : UInt8) (received : List UInt8)
  /-- These bytes of the result are still to be read. -/
  | result (left : List UInt8)
  deriving Inhabited

end Fdc

structure Fdc where
  phase : Fdc.Phase
  drives : Vector (Option Fdc.Drive) 4
  /-- For each unit, the first status byte of a seek that has ended and has not
  been asked about. -/
  seekEnds : Vector (Option UInt8) 4
  motor : Bool
  /-- Clock ticks since the motor was started. -/
  spin : Nat
  ticks : UInt64
  /-- Which sector passes under the head next, counted over all tracks. -/
  nextId : UInt64

namespace Fdc

/-- A controller without drives. -/
def initial : Fdc where
  phase := .idle
  drives := .replicate 4 none
  seekEnds := .replicate 4 none
  motor := false
  spin := 0
  ticks := 0
  nextId := 0

/-- Gives up whatever is going on and stops the motor. Drives keep their disks
and their head positions. -/
def reset (f : Fdc) : Fdc :=
  { f with phase := .idle, seekEnds := .replicate 4 none, motor := false, spin := 0 }

/-! ## Drives -/

def drive (f : Fdc) (unit : Nat) : Option Drive := f.drives[unit]?.join

def setDrive (f : Fdc) (unit : Nat) (d : Option Drive) : Fdc :=
  { f with drives := f.drives.setIfInBounds unit d }

def isAttached (f : Fdc) (unit : Nat) : Bool := (f.drive unit).isSome

def disk (f : Fdc) (unit : Nat) : Option Image := (f.drive unit).bind (·.disk)

/-- The head position, zero where there is no drive. -/
def cylinder (f : Fdc) (unit : Nat) : UInt8 := ((f.drive unit).map (·.cylinder)).getD 0

/-- Changes a drive, if there is one. -/
def modifyDrive (f : Fdc) (unit : Nat) (change : Drive → Drive) : Fdc :=
  match f.drive unit with
  | some d => f.setDrive unit (some (change d))
  | none => f

/-- Attaches an empty drive; one that is attached already stays as it is. -/
def attach (f : Fdc) (unit : Nat) : Fdc :=
  if f.isAttached unit then f else f.setDrive unit (some {})

/-- Takes a drive away with the disk in it. -/
def detach (f : Fdc) (unit : Nat) : Fdc := f.setDrive unit none

/-- Puts a disk into a drive, in the place of the one that may be in it. -/
def insert (f : Fdc) (unit : Nat) (disk : Image) : Option Fdc :=
  (f.drive unit).map fun d => f.setDrive unit (some { d with disk := some disk })

def eject (f : Fdc) (unit : Nat) : Fdc := f.modifyDrive unit ({ · with disk := none })

def setCylinder (f : Fdc) (unit : Nat) (cylinder : UInt8) : Fdc :=
  f.modifyDrive unit ({ · with cylinder })

/-- Changes the disk in a drive, if there is one. -/
def modifyDisk (f : Fdc) (unit : Nat) (change : Image → Image) : Fdc :=
  f.modifyDrive unit fun d => { d with disk := d.disk.map change }

/-! ## Motor and time -/

def setMotor (f : Fdc) (on : Bool) : Fdc :=
  { f with motor := on, spin := if !on || !f.motor then 0 else f.spin }

def clock (f : Fdc) : Fdc :=
  { f with ticks := f.ticks + 1, spin := if f.motor then f.spin + 1 else f.spin }

/-- Clock ticks that a motor needs to reach its speed. -/
def spinUp : Nat := 1

/-- The motor has reached its speed and there is a disk in the drive. -/
def isReady (f : Fdc) (unit : Nat) : Bool :=
  f.motor && spinUp ≤ f.spin && (f.disk unit).isSome

/-! ## Status -/

/-- A seek has ended that has not been asked about. -/
def interruptPending (f : Fdc) : Bool := f.seekEnds.toList.any (·.isSome)

/-- The main status register: bit 7, the data register is ready; bit 6, it is
to be read; bit 5, data is being transferred; bit 4, a command is going on. -/
def mainStatus (f : Fdc) : UInt8 :=
  match f.phase with
  | .idle => 0x80
  | .command _ => 0x90
  | .reading .. => 0xF0
  | .writing .. | .formatting .. => 0xB0
  | .result _ => 0xD0

/-! Bits of the status bytes in a result. -/

def invalidCommand : UInt8 := 0x80
def abnormal : UInt8 := 0x40
def seekEnd : UInt8 := 0x20
def equipmentCheck : UInt8 := 0x10
def notReady : UInt8 := 0x08
def endOfCylinder : UInt8 := 0x80
def dataError : UInt8 := 0x20
def noData : UInt8 := 0x04
def missingAddress : UInt8 := 0x01
def controlMark : UInt8 := 0x40
def driveReady : UInt8 := 0x20
def trackZero : UInt8 := 0x10
def twoSided : UInt8 := 0x08

/-- The result of a transfer: three status bytes, then the ID of the sector it
came to. -/
def Transfer.result (t : Transfer) (status0 status1 status2 : UInt8) : List UInt8 :=
  [t.select.status ||| status0, status1, status2, t.cylinder, t.head, t.record, t.sizeCode]

def SectorId.toList (id : SectorId) : List UInt8 := [id.cylinder, id.head, id.record, id.sizeCode]

def enterResult (f : Fdc) (bytes : List UInt8) : Fdc := { f with phase := .result bytes }

/-- Data to be read out, unless there is none, and the result after it. -/
def startRead (f : Fdc) (data : ByteArray) (result : List UInt8) : Fdc :=
  if data.isEmpty then f.enterResult result else { f with phase := .reading data 0 result }

/-! ## Commands -/

def senseDrive (f : Fdc) (select : Select) : Fdc :=
  let unit := select.unit
  let ready := if f.isReady unit then driveReady else 0
  let atZero := if f.isAttached unit && f.cylinder unit == 0 then trackZero else 0
  let sides := if (f.disk unit).any (1 < ·.sides) then twoSided else 0
  f.enterResult [select.status ||| ready ||| atZero ||| sides]

/-- A seek ends at once, and leaves its status to be asked for. -/
def seek (f : Fdc) (select : Select) (cylinder : UInt8) : Fdc :=
  let unit := select.unit
  let trouble :=
    if !f.isAttached unit then abnormal ||| equipmentCheck
    else if !f.isReady unit then abnormal ||| notReady
    else 0
  let f := f.setCylinder unit cylinder
  let status := seekEnd ||| select.bits &&& 3 ||| trouble
  { f with phase := .idle, seekEnds := f.seekEnds.setIfInBounds unit (some status) }

/-- Answers the seek that ended on the lowest unit, and forgets it. -/
def senseInterrupt (f : Fdc) : Fdc :=
  let pending := f.seekEnds.toList.zipIdx.findSome? fun (status, unit) => status.map (·, unit)
  match pending with
  | some (status, unit) =>
    { f with seekEnds := f.seekEnds.setIfInBounds unit none }.enterResult [status, f.cylinder unit]
  | none => f.enterResult [invalidCommand]

/-- The sector numbers from the first to the last, wrapping after 255. -/
def recordsFrom (first last : UInt8) : List UInt8 :=
  (List.range ((last - first).toNat + 1)).map fun i => first + i.toUInt8

/-- What a read has gathered so far. -/
structure Gathered where
  data : ByteArray
  status1 : UInt8 := 0
  status2 : UInt8 := 0

/-- Adds the data of a sector, cut or filled up with zeros to the length of the
transfer, and what is wrong with the sector. -/
def Gathered.add (g : Gathered) (t : Transfer) (s : Sector) : Gathered where
  data := g.data ++ sliceOrZero s.data 0 t.sectorLength
  status1 := g.status1 ||| s.status1 &&& dataError
  status2 := g.status2 ||| s.status2 &&& dataError |||
    (if s.deleted != t.deleted then controlMark else 0)

/-- Reads the given sectors up to the first that is missing: what was gathered,
and the number of the sector it came to. -/
def gather (t : Transfer) (find : UInt8 → Option Sector) (g : Gathered) (record : UInt8) :
    List UInt8 → Gathered × UInt8
  | [] => ({ g with status1 := g.status1 ||| endOfCylinder }, record)
  | r :: rest =>
    match find r with
    | none => ({ g with status1 := g.status1 ||| noData }, r)
    | some s => gather t find (g.add t s) r rest

/-- Reads sectors up to the last one asked for, or up to one that is missing. -/
def readSectors (f : Fdc) (t : Transfer) : Fdc :=
  let unit := t.select.unit
  match f.disk unit, f.isReady unit with
  | some disk, true =>
    let find := disk.sector (f.cylinder unit) t.select.head t.cylinder
    let (g, record) := gather t find { data := .empty } t.record (recordsFrom t.record t.lastRecord)
    f.startRead g.data ({ t with record }.result abnormal g.status1 g.status2)
  | _, _ => f.enterResult (t.result (abnormal ||| notReady) 0 0)

/-- Reads the sectors of a track in the order in which they lie on it, as many
as the number of the last sector says. -/
def readTrack (f : Fdc) (t : Transfer) : Fdc :=
  let unit := t.select.unit
  if f.isReady unit then
    let sectors := ((f.disk unit).bind fun d => d.track (f.cylinder unit) t.select.head).elim []
      (·.sectors)
    if sectors.isEmpty then f.enterResult (t.result abnormal missingAddress missingAddress)
    else
      let data := (sectors.take t.lastRecord.toNat).foldl
        (fun out s => out ++ sliceOrZero s.data 0 t.sectorLength) .empty
      f.startRead data (t.result abnormal endOfCylinder 0)
  else f.enterResult (t.result (abnormal ||| notReady) 0 0)

/-- The ID of the sector that passes under the head next. -/
def readId (f : Fdc) (select : Select) : Fdc :=
  let unit := select.unit
  if f.isReady unit then
    let sectors := ((f.disk unit).bind fun d => d.track (f.cylinder unit) select.head).elim []
      (·.sectors)
    match sectors[f.nextId.toNat % sectors.length]? with
    | some s =>
      { f with nextId := f.nextId + 1 }.enterResult ([select.status, 0, 0] ++ SectorId.toList s.id)
    | none =>
      f.enterResult [select.status ||| abnormal, missingAddress, missingAddress, 0, 0, 0, 0]
  else f.enterResult [select.status ||| abnormal ||| notReady, 0, 0, 0, 0, 0, 0]

/-- Takes data for the next sector of a transfer, if the disk has that sector. -/
def beginWrite (f : Fdc) (t : Transfer) : Fdc :=
  let unit := t.select.unit
  let found := (f.disk unit).bind fun d =>
    d.sector (f.cylinder unit) t.select.head t.cylinder t.record
  match found with
  | some _ => { f with phase := .writing t .empty }
  | none => f.enterResult (t.result abnormal noData 0)

def writeSectors (f : Fdc) (t : Transfer) : Fdc :=
  if f.isReady t.select.unit then f.beginWrite t
  else f.enterResult (t.result (abnormal ||| notReady) 0 0)

/-- Writes a sector whose data is complete, and goes on with the next one. -/
def commitSector (f : Fdc) (t : Transfer) (data : ByteArray) : Fdc :=
  let unit := t.select.unit
  let written := (f.disk unit).bind fun d =>
    d.writeSector (f.cylinder unit) t.select.head t.cylinder t.record data t.deleted
  match written with
  | none => f.enterResult (t.result abnormal noData 0)
  | some disk =>
    let f := f.modifyDisk unit fun _ => disk
    if t.record = t.lastRecord then f.enterResult (t.result abnormal endOfCylinder 0)
    else f.beginWrite { t with record := t.record + 1 }

/-- The sector IDs that a row of bytes holds, four bytes each. -/
def sectorIds : List UInt8 → List SectorId
  | c :: h :: r :: n :: rest => ⟨c, h, r, n⟩ :: sectorIds rest
  | _ => []

/-- Formats a track whose sector IDs are complete. -/
def commitFormat (f : Fdc) (select : Select) (filler : UInt8) (received : List UInt8) : Fdc :=
  let ids := sectorIds received
  let unit := select.unit
  let cylinder := f.cylinder unit
  let f := f.modifyDisk unit fun d => d.formatTrack cylinder select.head ids filler
  f.enterResult ([select.status, 0, 0] ++ SectorId.toList (ids.getLastD ⟨0, 0, 0, 0⟩))

def formatTrack (f : Fdc) (select : Select) (sizeCode count filler : UInt8) : Fdc :=
  if f.isReady select.unit then
    if count = 0 then f.commitFormat select filler []
    else { f with phase := .formatting select count filler [] }
  else f.enterResult [select.status ||| abnormal ||| notReady, 0, 0, 0, 0, 0, sizeCode]

/-- What the controller does with a complete command. -/
def run (f : Fdc) : Request → Fdc
  | .specify => { f with phase := .idle }
  | .senseDrive select => f.senseDrive select
  | .seek select cylinder => f.seek select cylinder
  | .senseInterrupt => f.senseInterrupt
  | .read t => f.readSectors t
  | .readTrack t => f.readTrack t
  | .write t => f.writeSectors t
  | .readId select => f.readId select
  | .format select sizeCode count filler => f.formatTrack select sizeCode count filler
  | .version | .invalid => f.enterResult [0x80]

/-! ## The data register -/

/-- Adds a byte to a command, and carries the command out when it is complete. -/
def receiveCommand (f : Fdc) (received : List UInt8) (v : UInt8) : Fdc :=
  let received := received ++ [v]
  if (Command.ofByte (received.headD v)).length ≤ received.length then f.run (.ofBytes received)
  else { f with phase := .command received }

/-- Writes the data register. A byte that is not asked for is lost. -/
def write (f : Fdc) (v : UInt8) : Fdc :=
  match f.phase with
  | .idle => f.receiveCommand [] v
  | .command received => f.receiveCommand received v
  | .writing t received =>
    let f := { f with phase := .idle }
    let received := received.push v
    if t.sectorLength ≤ received.size then f.commitSector t received
    else { f with phase := .writing t received }
  | .formatting select count filler received =>
    let received := received ++ [v]
    if count.toNat * 4 ≤ received.length then f.commitFormat select filler received
    else { f with phase := .formatting select count filler received }
  | .reading .. | .result _ => f

/-- Reads the data register; 0xFF when there is nothing to read. -/
def read (f : Fdc) : UInt8 × Fdc :=
  match f.phase with
  | .reading data next result =>
    let f := if data.size ≤ next + 1 then f.enterResult result
      else { f with phase := .reading data (next + 1) result }
    (if h : next < data.size then data.get next h else 0xFF, f)
  | .result [] => (0xFF, { f with phase := .idle })
  | .result [v] => (v, { f with phase := .idle })
  | .result (v :: left) => (v, f.enterResult left)
  | .idle | .command _ | .writing .. | .formatting .. => (0xFF, f)

/-- Reads the data register while a condition holds, at most so many times. -/
def readWhile (f : Fdc) (p : Fdc → Bool) (times : Nat) (out : ByteArray := ∅) : ByteArray × Fdc :=
  match times with
  | 0 => (out, f)
  | times + 1 =>
    if p f then
      let (v, f) := f.read
      f.readWhile p times (out.push v)
    else (out, f)

end Fdc

end AmstradCpc
