/-
The two disk drives of the machine, with the controller between them and the
processor, and the files that the disks in them come from. A disk that was
written to goes back to its file when it leaves its drive; if that fails it
stays where it is.
-/
import AmstradCpc.Fdc
import AmstradCpc.Storage.FileTask

namespace AmstradCpc

open Disk (Image)

/-- Drives with a file for their disk. -/
def driveCount : Nat := 2

structure Drives where
  controller : Fdc
  /-- The file of the disk in each drive. -/
  files : Vector (Option String) driveCount := .replicate driveCount none
  /-- It has been said that the motor runs although the first drive is empty. -/
  idleReported : Bool := false

namespace Drives

/-- Two empty drives. -/
def initial : Drives := { controller := (Fdc.initial.attach 0).attach 1 }

/-- Stops what the controller is doing. Disks stay in their drives. -/
def reset (d : Drives) : Drives := { d with controller := d.controller.reset, idleReported := false }

/-- The file of the disk in a drive. -/
def file? (d : Drives) (drive : Nat) : Option String := d.files[drive]?.join

/-- The disk in a drive and its file, if the file is out of date. -/
def unsaved? (d : Drives) (drive : Nat) : Option (String × Image) :=
  match d.file? drive, d.controller.disk drive with
  | some path, some image => if image.dirty then some (path, image) else none
  | _, _ => none

/-- Takes the disk out. -/
def eject (d : Drives) (drive : Nat) : Drives :=
  { d with
    controller := d.controller.eject drive
    files := d.files.setIfInBounds drive none }

/-- Puts a disk in, if there is such a drive with room for a file. -/
def mount? (d : Drives) (drive : Nat) (path : String) (image : Image) : Option Drives :=
  if drive < driveCount then
    (d.controller.insert drive image).map fun controller =>
      { d with controller, files := d.files.setIfInBounds drive (some path) }
  else none

/-- A notice about a drive. -/
def notice (severity : Severity) (drive : Nat) (text : String) : Notice :=
  ⟨severity, .drives, "drive " ++ (driveLetter drive).toString ++ ": " ++ text⟩

/-! ## Motor and time -/

def setMotor (d : Drives) (on : Bool) : Drives := { d with controller := d.controller.setMotor on }

def motorNotices (d : Drives) (on : Bool) : List Notice :=
  if on == d.controller.motor then []
  else [⟨.trace, .drives, "fdc motor " ++ if on then "on" else "off"⟩]

/-- The motor runs although the first drive is empty. -/
def spinsEmpty (d : Drives) : Bool := d.controller.motor && (d.controller.disk 0).isNone

/-- A frame has passed. -/
def clock (d : Drives) : Drives :=
  { d with controller := d.controller.clock, idleReported := d.spinsEmpty }

def clockNotices (d : Drives) : List Notice :=
  if d.spinsEmpty && !d.idleReported then
    [⟨.debug, .drives, "fdc motor running with drive A empty"⟩]
  else []

/-! ## Disks and files -/

section Files

open FileTask (note part setPart modifyPart require readFile writeFile)

variable {m : Type → Type} [Monad m] [MonadFiles m]

/-- Writes a disk that was changed back to its file. -/
def save (drive : Nat) : FileTask Drives m Unit := do
  match (← part).unsaved? drive with
  | some (path, image) =>
    writeFile path image.toBytes
    note (notice .info drive s!"saved {path}")
  | none => return

/-- Takes a disk out of a drive, once its file is up to date. -/
def remove (drive : Nat) : FileTask Drives m Unit := do
  save drive
  let drives ← part
  setPart (drives.eject drive)
  if (drives.controller.disk drive).isSome then
    match drives.file? drive with
    | some path => note (notice .info drive s!"removed {path}")
    | none => note (notice .trace drive "removed unnamed disk")

/-- Puts a disk that has just been read or written in the place of the one in a
drive. -/
def exchange (drive : Nat) (path : String) (image : Image) : FileTask Drives m Unit := do
  remove drive
  match (← part).mount? drive path image with
  | some drives => setPart drives
  | none => throw (.disk path (.noDrive drive))

/-- Puts the disk of a file into a drive. No file name means no disk. -/
def insert (drive : Nat) (path : String) : FileTask Drives m Unit := do
  if path.isEmpty then remove drive
  else
    let data ← readFile path
    let image ← require ((Image.parse data).mapError fun cause => .disk path (.unreadable cause))
    exchange drive path image
    note (notice .info drive s!"inserted {path}")

/-- How messages name the two ways to format a disk. -/
def formatName : Disk.Format → String
  | .data => "Data"
  | .system => "System"

/-- Makes the file of a freshly formatted disk, and puts that into a drive. -/
def create (drive : Nat) (path : String) (format : Disk.Format) : FileTask Drives m Unit := do
  let image := Image.formatted format
  writeFile path image.toBytes
  exchange drive path image
  note (notice .info drive ("created " ++ formatName format ++ " disk " ++ path))

/-- Takes the disk out of a drive, and leaves a notice if that fails. -/
def tryRemove (drive : Nat) : FileTask Drives m (Except Error Unit) := do
  let result ← (remove drive).attempt
  match result with
  | .error e => note (notice .error drive e.message)
  | .ok () => pure ()
  return result

/-- Takes all disks out. Every drive is tried; the first failure is the result. -/
def flush : FileTask Drives m Unit := do
  let first ← tryRemove 0
  let second ← tryRemove 1
  require first
  require second

end Files

end Drives

end AmstradCpc
