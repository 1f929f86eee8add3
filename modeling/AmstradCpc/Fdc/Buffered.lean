/-
The controller buffer by buffer. The phase is a field of its own, and the bytes
of a command, those of a result and the data of an execution stand beside it;
only the order in which they are set makes them fit. Where they do not fit, an
access falls back: a read gives 0xFF, a written byte is dropped. A command takes
each parameter by its place in the buffer, and has no outcome where one is
missing.
-/
import AmstradCpc.Fdc

namespace AmstradCpc.Fdc

/-- Which phase it is, without what belongs to the phase. -/
inductive Stage where
  | idle
  | command
  | executionRead
  | executionWrite
  | result
  deriving DecidableEq, Repr, Inhabited

/-- The data of the transfer under way. -/
inductive Execution where
  | none
  /-- Data is read out from position `pos` on; `result` follows. -/
  | read (data : ByteArray) (pos : Nat) (result : List UInt8)
  /-- The data of a sector is coming in. -/
  | write (t : Transfer) (data : ByteArray)
  /-- The sector IDs of a track to be formatted are coming in. -/
  | format (select : Select) (count filler : UInt8) (ids : List UInt8)
  deriving Inhabited

structure Buffered where
  phase : Stage
  command : List UInt8
  /-- Bytes of the whole command whose first bytes are in the buffer. -/
  commandLength : Nat
  result : List UInt8
  /-- The place of the byte of the result that is read next. -/
  resultPos : Nat
  execution : Execution
  /-- The step rate and the head times, which no drive here needs. -/
  specified : UInt8 × UInt8
  drives : Vector (Option Drive) 4
  seekEnds : Vector (Option UInt8) 4
  motor : Bool
  spin : Nat
  ticks : UInt64
  nextId : UInt64

namespace Buffered

/-- A controller without drives. -/
def initial : Buffered where
  phase := .idle
  command := []
  commandLength := 0
  result := []
  resultPos := 0
  execution := .none
  specified := (0, 0)
  drives := .replicate 4 none
  seekEnds := .replicate 4 none
  motor := false
  spin := 0
  ticks := 0
  nextId := 0

def reset (c : Buffered) : Buffered :=
  { c with
    phase := .idle
    command := []
    commandLength := 0
    result := []
    resultPos := 0
    execution := .none
    seekEnds := .replicate 4 none
    motor := false
    spin := 0 }

/-- The controller in a phase, with the drives and the motor of this one. -/
def inPhase (c : Buffered) (phase : Phase) : Fdc where
  phase
  drives := c.drives
  seekEnds := c.seekEnds
  motor := c.motor
  spin := c.spin
  ticks := c.ticks
  nextId := c.nextId

/-- Drives and motor alone. What is done to them needs no buffer. -/
def bare (c : Buffered) : Fdc := c.inPhase .idle

/-- The same buffers with the drives and the motor of another controller. -/
def withBare (c : Buffered) (f : Fdc) : Buffered :=
  { c with
    drives := f.drives
    seekEnds := f.seekEnds
    motor := f.motor
    spin := f.spin
    ticks := f.ticks
    nextId := f.nextId }

def mainStatus (c : Buffered) : UInt8 :=
  match c.phase with
  | .idle => 0x80
  | .command => 0x90
  | .executionRead => 0xF0
  | .executionWrite => 0xB0
  | .result => 0xD0

/-! ## Entering a phase -/

def enterResult (c : Buffered) (bytes : List UInt8) : Buffered :=
  { c with result := bytes, resultPos := 0, phase := .result }

def startRead (c : Buffered) (data : ByteArray) (result : List UInt8) : Buffered :=
  if data.isEmpty then c.enterResult result
  else { c with execution := .read data 0 result, phase := .executionRead }

def startWrite (c : Buffered) (execution : Execution) : Buffered :=
  { c with execution, phase := .executionWrite }

/-! ## Commands -/

def senseDrive (c : Buffered) (select : Select) : Buffered :=
  let unit := select.unit
  let ready := if c.bare.isReady unit then driveReady else 0
  let atZero := if c.bare.isAttached unit && c.bare.cylinder unit == 0 then trackZero else 0
  let sides := if (c.bare.disk unit).any (1 < ·.sides) then twoSided else 0
  c.enterResult [select.status ||| ready ||| atZero ||| sides]

def seek (c : Buffered) (select : Select) (cylinder : UInt8) : Buffered :=
  c.withBare (c.bare.seek select cylinder)

def senseInterrupt (c : Buffered) : Buffered :=
  let pending := c.seekEnds.toList.zipIdx.findSome? fun (status, unit) => status.map (·, unit)
  match pending with
  | some (status, unit) =>
    { c with seekEnds := c.seekEnds.setIfInBounds unit none }.enterResult
      [status, c.bare.cylinder unit]
  | none => c.enterResult [invalidCommand]

def readSectors (c : Buffered) (t : Transfer) : Buffered :=
  let unit := t.select.unit
  if c.bare.isReady unit then
    match c.bare.disk unit with
    | none => c
    | some disk =>
      let find := disk.sector (c.bare.cylinder unit) t.select.head t.cylinder
      let (g, record) :=
        gather t find { data := .empty } t.record (recordsFrom t.record t.lastRecord)
      c.startRead g.data ({ t with record }.result abnormal g.status1 g.status2)
  else c.enterResult (t.result (abnormal ||| notReady) 0 0)

def readTrack (c : Buffered) (t : Transfer) : Buffered :=
  let unit := t.select.unit
  if c.bare.isReady unit then
    let sectors := ((c.bare.disk unit).bind fun d =>
      d.track (c.bare.cylinder unit) t.select.head).elim [] (·.sectors)
    if sectors.isEmpty then c.enterResult (t.result abnormal missingAddress missingAddress)
    else
      let data := (sectors.take t.lastRecord.toNat).foldl
        (fun out s => out ++ sliceOrZero s.data 0 t.sectorLength) .empty
      c.startRead data (t.result abnormal endOfCylinder 0)
  else c.enterResult (t.result (abnormal ||| notReady) 0 0)

def readId (c : Buffered) (select : Select) : Buffered :=
  let unit := select.unit
  if c.bare.isReady unit then
    let sectors := ((c.bare.disk unit).bind fun d =>
      d.track (c.bare.cylinder unit) select.head).elim [] (·.sectors)
    match sectors[c.nextId.toNat % sectors.length]? with
    | some s =>
      { c with nextId := c.nextId + 1 }.enterResult ([select.status, 0, 0] ++ SectorId.toList s.id)
    | none =>
      c.enterResult [select.status ||| abnormal, missingAddress, missingAddress, 0, 0, 0, 0]
  else c.enterResult [select.status ||| abnormal ||| notReady, 0, 0, 0, 0, 0, 0]

/-- Takes data for the next sector of a transfer, or gives the transfer up. -/
def beginWrite (c : Buffered) (t : Transfer) : Buffered :=
  let unit := t.select.unit
  let found := (c.bare.disk unit).bind fun d =>
    d.sector (c.bare.cylinder unit) t.select.head t.cylinder t.record
  match found with
  | some _ => c.startWrite (.write t .empty)
  | none => { c with execution := .none }.enterResult (t.result abnormal noData 0)

def writeSectors (c : Buffered) (t : Transfer) : Buffered :=
  if c.bare.isReady t.select.unit then c.beginWrite t
  else c.enterResult (t.result (abnormal ||| notReady) 0 0)

def commitSector (c : Buffered) (t : Transfer) (data : ByteArray) : Buffered :=
  let unit := t.select.unit
  let written := (c.bare.disk unit).bind fun d =>
    d.writeSector (c.bare.cylinder unit) t.select.head t.cylinder t.record data t.deleted
  match written with
  | none => { c with execution := .none }.enterResult (t.result abnormal noData 0)
  | some disk =>
    let c := c.withBare (c.bare.modifyDisk unit fun _ => disk)
    if t.record = t.lastRecord then
      { c with execution := .none }.enterResult (t.result abnormal endOfCylinder 0)
    else c.beginWrite { t with record := t.record + 1 }

/-- Takes the execution, which is to be one that formats, and carries it out. -/
def commitFormat (c : Buffered) : Buffered :=
  match c.execution with
  | .format select _ filler ids =>
    let ids := sectorIds ids
    let unit := select.unit
    let cylinder := c.bare.cylinder unit
    let c := { c with execution := .none }
    let c := c.withBare (c.bare.modifyDisk unit fun d =>
      d.formatTrack cylinder select.head ids filler)
    c.enterResult ([select.status, 0, 0] ++ SectorId.toList (ids.getLastD ⟨0, 0, 0, 0⟩))
  | .none | .read .. | .write .. => { c with execution := .none }

def formatTrack (c : Buffered) (select : Select) (sizeCode count filler : UInt8) : Buffered :=
  if c.bare.isReady select.unit then
    let execution := .format select count filler []
    if count = 0 then { c with execution }.commitFormat else c.startWrite execution
  else c.enterResult [select.status ||| abnormal ||| notReady, 0, 0, 0, 0, 0, sizeCode]

/-- The parameters of a transfer, each at its place behind the first byte. -/
def transfer? (p : List UInt8) (deleted : Bool) : Option Transfer := do
  return ⟨⟨← p[1]?⟩, ← p[2]?, ← p[3]?, ← p[4]?, ← p[5]?, ← p[6]?, ← p[8]?, deleted⟩

/-- Carries out the command in the given bytes. -/
def dispatch (c : Buffered) (p : List UInt8) : Option Buffered := do
  match Command.ofByte (← p[0]?) with
  | .specify => return { c with specified := (← p[1]?, ← p[2]?) }
  | .senseDriveStatus => return c.senseDrive ⟨← p[1]?⟩
  | .recalibrate => return c.seek ⟨← p[1]?⟩ 0
  | .seek => return c.seek ⟨← p[1]?⟩ (← p[2]?)
  | .senseInterruptStatus => return c.senseInterrupt
  | .readData => return c.readSectors (← transfer? p false)
  | .readDeletedData => return c.readSectors (← transfer? p true)
  | .readTrack => return c.readTrack (← transfer? p false)
  | .writeData => return c.writeSectors (← transfer? p false)
  | .writeDeletedData => return c.writeSectors (← transfer? p true)
  | .readId => return c.readId ⟨← p[1]?⟩
  | .formatTrack => return c.formatTrack ⟨← p[1]?⟩ (← p[2]?) (← p[3]?) (← p[5]?)
  | .version | .invalid => return c.enterResult [0x80]

/-- Takes the command out of its buffer and carries it out. -/
def execute (c : Buffered) : Option Buffered :=
  { c with command := [], phase := .idle }.dispatch c.command

/-! ## The data register -/

def writeExecutionByte (c : Buffered) (v : UInt8) : Buffered :=
  match c.execution with
  | .write t data =>
    let data := data.push v
    if t.sectorLength ≤ data.size then
      { c with execution := .write t .empty }.commitSector t data
    else { c with execution := .write t data }
  | .format select count filler ids =>
    let ids := ids ++ [v]
    let c := { c with execution := .format select count filler ids }
    if count.toNat * 4 ≤ ids.length then c.commitFormat else c
  | .none | .read .. => c

/-- Writes the data register; no outcome where a command lacks a parameter. -/
def write (c : Buffered) (v : UInt8) : Option Buffered :=
  match c.phase with
  | .idle =>
    let c := { c with command := [v], commandLength := (Command.ofByte v).length }
    if c.commandLength = 1 then c.execute else some { c with phase := .command }
  | .command =>
    let c := { c with command := c.command ++ [v] }
    if c.commandLength ≤ c.command.length then c.execute else some c
  | .executionWrite => some (c.writeExecutionByte v)
  | .executionRead | .result => some c

def readExecutionByte (c : Buffered) : UInt8 × Buffered :=
  match c.execution with
  | .read data pos result =>
    let c := if data.size ≤ pos + 1 then { c with execution := .none }.enterResult result
      else { c with execution := .read data (pos + 1) result }
    (if h : pos < data.size then data.get pos h else 0xFF, c)
  | .none | .write .. | .format .. => (0xFF, c)

/-- Reads the data register; 0xFF where no byte is found. -/
def read (c : Buffered) : UInt8 × Buffered :=
  match c.phase with
  | .executionRead => c.readExecutionByte
  | .result =>
    let next := c.resultPos + 1
    (c.result.getD c.resultPos 0xFF,
      if c.result.length ≤ next then { c with phase := .idle, result := [], resultPos := 0 }
      else { c with resultPos := next })
  | .idle | .command | .executionWrite => (0xFF, c)

end Buffered

end AmstradCpc.Fdc
