/-
What can go wrong with files and settings, by cause, and how each is put into
words. What goes wrong inside the emulated machine is not among them: the
machine goes on, as a real one would, and leaves a notice.
-/
import AmstradCpc.Disk.File
import AmstradCpc.Text.Quoted

namespace AmstradCpc

/-! ## Files -/

/-- Why a file cannot be read or written. -/
inductive FileProblem where
  | notFound
  | permissionDenied
  | notADirectory
  | isADirectory
  /-- The file is not the UTF-8 text it should be. -/
  | invalidData
  /-- There is a character in the path that none may have. -/
  | invalidInput
  /-- The path, or a name in it, is too long. -/
  | invalidFilename
  /-- What else a disk may have to say. -/
  | other (text : String)
  deriving DecidableEq, Repr, Inhabited

def FileProblem.message : FileProblem → String
  | .notFound => "No such file or directory (os error 2)"
  | .permissionDenied => "Permission denied (os error 13)"
  | .notADirectory => "Not a directory (os error 20)"
  | .isADirectory => "Is a directory (os error 21)"
  | .invalidData => "stream did not contain valid UTF-8"
  | .invalidInput => "file name contained an unexpected NUL byte"
  | .invalidFilename => "File name too long (os error 36)"
  | .other text => text

/-- The letter of a drive; there are never more than four. -/
def driveLetter (drive : Nat) : Char := Char.ofNat (65 + drive % 4)

/-- Why a disk image cannot be put into a drive. -/
inductive DiskProblem where
  | unreadable (cause : Disk.ParseError)
  | noDrive (drive : Nat)
  /-- The model has no drives at all. -/
  | noInterface (model : String)
  deriving DecidableEq, Repr

def DiskProblem.message : DiskProblem → String
  | .unreadable cause => cause.message
  | .noDrive drive => "no drive " ++ (driveLetter drive).toString
  | .noInterface model => model ++ " has no disc interface"

/-! ## Snapshots and settings -/

/-- Why bytes are not a snapshot that the machine can take. -/
inductive SnapshotError where
  | badSignature
  | truncated (expected actual : Nat)
  /-- The memory is not a whole number of banks. -/
  | memorySize (kilobytes : Nat)
  | tooLarge (kilobytes installed : Nat)
  deriving DecidableEq, Repr

def SnapshotError.message : SnapshotError → String
  | .badSignature => "missing MV - SNA signature"
  | .truncated expected actual => s!"truncated: expected {expected} bytes, found {actual}"
  | .memorySize kilobytes => s!"memory dump of {kilobytes}K is not a whole number of 16K banks"
  | .tooLarge kilobytes installed =>
    s!"memory dump of {kilobytes}K exceeds the {installed}K installed"

inductive ConfigError where
  /-- A setting with named values has none of this name. -/
  | unknownName (setting name : String)
  | unsupportedDepth (bits : Nat)
  /-- The depth is not a number that a byte holds. -/
  | badDepth (text : String)
  | slotOutOfRange (slot : Nat)
  | noSystemRom
  | systemRomSize (bytes : Nat)
  /-- The file is not a configuration. -/
  | malformed (path : String)
  deriving DecidableEq, Repr

def ConfigError.message : ConfigError → String
  | .unknownName setting name => "unknown " ++ setting ++ " " ++ Text.quoted name
  | .unsupportedDepth bits => s!"unsupported depth {bits} bpp"
  | .badDepth text => "unsupported depth " ++ Text.quoted text
  | .slotOutOfRange slot => s!"expansion ROM slot {slot} out of range 0-15"
  | .noSystemRom => "no system ROM configured"
  | .systemRomSize bytes => s!"system ROM must be 32K, got {bytes} bytes"
  | .malformed path => path

/-! ## All of them -/

inductive Error where
  | file (path : String) (problem : FileProblem)
  | romSize (path : String) (bytes : Nat)
  | ramSize (kilobytes : Nat)
  | snapshot (cause : SnapshotError)
  | disk (path : String) (problem : DiskProblem)
  | config (cause : ConfigError)
  /-- The sound cannot be written to its file. -/
  | sound (problem : FileProblem)
  deriving DecidableEq, Repr

def Error.message : Error → String
  | .file path problem => path ++ ": " ++ problem.message
  | .romSize path bytes => s!"{path}: ROM image is {bytes} bytes"
  | .ramSize kilobytes => s!"unsupported RAM size: {kilobytes}K"
  | .snapshot cause => "snapshot: " ++ cause.message
  | .disk path problem => path ++ ": " ++ problem.message
  | .config cause => "configuration: " ++ cause.message
  | .sound problem => "audio dump: " ++ problem.message

end AmstradCpc
