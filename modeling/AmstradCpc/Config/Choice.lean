/-
The settings that are a choice between named values. Every value has one name
that configuration files use and may have more that the command line takes; the
command line does not tell capital letters from small ones.
-/
import AmstradCpc.Error
import AmstradCpc.Notice
import AmstradCpc.Text.Number

namespace AmstradCpc

/-- A setting whose values have names. -/
class Choice (α : Type) where
  /-- What messages call the setting. -/
  setting : String
  /-- Every value with its names, that of configuration files first. -/
  names : List (α × List String)

namespace Choice

variable {α : Type} [Choice α]

/-- The value that has `name` in configuration files. -/
def ofFileName? (name : String) : Option α :=
  ((names (α := α)).find? fun entry => entry.2.head? == some name).map (·.1)

/-- The value that has `name` on the command line. -/
def ofName? (name : String) : Option α :=
  ((names (α := α)).find? fun entry => entry.2.contains name).map (·.1)

end Choice

/-- A setting that the command line can change. -/
class Setting (α : Type) where
  ofText : String → Except Error α

instance {α : Type} [Choice α] : Setting α where
  ofText text :=
    let name := text.map Char.toLower
    match Choice.ofName? name with
    | some value => .ok value
    | none => .error (.config (.unknownName (Choice.setting α) name))

/-! ## The machine -/

/-- The name on the case, which the machine finds on three of its straps. -/
inductive Company where
  | isp
  | triumph
  | saisho
  | solavox
  | awa
  | schneider
  | orion
  | amstrad
  deriving DecidableEq, Repr

instance : Inhabited Company := ⟨.amstrad⟩

instance : Choice Company where
  setting := "CompanyName"
  names := [(.isp, ["isp"]), (.triumph, ["triumph"]), (.saisho, ["saisho"]),
    (.solavox, ["solavox"]), (.awa, ["awa"]), (.schneider, ["schneider"]), (.orion, ["orion"]),
    (.amstrad, ["amstrad"])]

/-- The levels of the straps. -/
def Company.code : Company → UInt8
  | .isp => 0
  | .triumph => 1
  | .saisho => 2
  | .solavox => 3
  | .awa => 4
  | .schneider => 5
  | .orion => 6
  | .amstrad => 7

/-- Installed memory, in steps of 64K. -/
inductive MemorySize where
  | k64
  | k128
  | k192
  | k256
  | k320
  | k384
  | k448
  | k512
  deriving DecidableEq, Repr, Inhabited

namespace MemorySize

def all : List MemorySize := [.k64, .k128, .k192, .k256, .k320, .k384, .k448, .k512]

def kilobytes : MemorySize → Nat
  | .k64 => 64
  | .k128 => 128
  | .k192 => 192
  | .k256 => 256
  | .k320 => 320
  | .k384 => 384
  | .k448 => 448
  | .k512 => 512

/-- The number of 16K banks. -/
def banks (m : MemorySize) : Nat := m.kilobytes / 16

def ofKilobytes (size : Nat) : Except Error MemorySize :=
  match all.find? fun m => m.kilobytes == size with
  | some m => .ok m
  | none => .error (.ramSize size)

/-- The value that has `name` in configuration files. -/
def ofFileName? (name : String) : Option MemorySize :=
  all.find? fun m => toString m.kilobytes ++ "k" == name

/-- The text without the letters `k` that it ends in. -/
def withoutUnit (text : String) : String :=
  String.ofList (text.toList.reverse.dropWhile fun c => c == 'k' || c == 'K').reverse

/-- A number of kilobytes, with or without the unit. -/
instance : Setting MemorySize where
  ofText text :=
    match Text.number? 10 UInt64.size (withoutUnit text) with
    | some size => ofKilobytes size
    | none => .error (.config (.unknownName "MemorySize" text))

end MemorySize

inductive Model where
  | cpc464
  | cpc664
  | cpc6128
  deriving DecidableEq, Repr

instance : Inhabited Model := ⟨.cpc6128⟩

instance : Choice Model where
  setting := "MachineType"
  names := [(.cpc464, ["cpc464", "464"]), (.cpc664, ["cpc664", "664"]),
    (.cpc6128, ["cpc6128", "6128"])]

namespace Model

def name : Model → String
  | .cpc464 => "Cpc464"
  | .cpc664 => "Cpc664"
  | .cpc6128 => "Cpc6128"

/-- The memory that the model was sold with. -/
def defaultMemory : Model → MemorySize
  | .cpc464 => .k64
  | .cpc664 => .k64
  | .cpc6128 => .k128

/-- The model has disk drives and their controller. -/
def hasDisc : Model → Bool
  | .cpc464 => false
  | .cpc664 => true
  | .cpc6128 => true

/-- How snapshots number the model. -/
def snapshotCode : Model → UInt8
  | .cpc464 => 0
  | .cpc664 => 1
  | .cpc6128 => 2

end Model

/-- The mains frequency that the picture is made for. -/
inductive Refresh where
  | hz50
  | hz60
  deriving DecidableEq, Repr, Inhabited

instance : Choice Refresh where
  setting := "RefreshRate"
  names := [(.hz50, ["50hz", "50"]), (.hz60, ["60hz", "60"])]

namespace Refresh

/-- Raster lines in a frame. -/
def lines : Refresh → Nat
  | .hz50 => 312
  | .hz60 => 262

/-- The level of the strap that tells the two apart. -/
def strap : Refresh → UInt8
  | .hz50 => 1
  | .hz60 => 0

/-- The time of a frame in microseconds. -/
def period : Refresh → Nat
  | .hz50 => 20000
  | .hz60 => 16667

end Refresh

/-! ## What is around it -/

inductive Monitor where
  | color
  | green
  | gray
  | ctm640
  | ctm644
  | gt64
  | gt65
  | cm14
  | mm12
  deriving DecidableEq, Repr, Inhabited

instance : Choice Monitor where
  setting := "MonitorType"
  names := [(.color, ["color", "colour"]), (.green, ["green"]), (.gray, ["gray", "grey"]),
    (.ctm640, ["ctm640"]), (.ctm644, ["ctm644"]), (.gt64, ["gt64"]), (.gt65, ["gt65"]),
    (.cm14, ["cm14"]), (.mm12, ["mm12"])]

def Monitor.name : Monitor → String
  | .color => "Color"
  | .green => "Green"
  | .gray => "Gray"
  | .ctm640 => "Ctm640"
  | .ctm644 => "Ctm644"
  | .gt64 => "Gt64"
  | .gt65 => "Gt65"
  | .cm14 => "Cm14"
  | .mm12 => "Mm12"

/-- The language that the keys are labelled for. -/
inductive Language where
  | english
  | french
  | german
  | spanish
  | danish
  deriving DecidableEq, Repr, Inhabited

instance : Choice Language where
  setting := "KeyboardType"
  names := [(.english, ["english", "qwerty"]), (.french, ["french", "azerty"]),
    (.german, ["german", "qwertz"]), (.spanish, ["spanish"]), (.danish, ["danish"])]

/-- How much the program tells. -/
inductive Verbosity where
  | quiet
  | error
  | alert
  | print
  | trace
  | debug
  deriving DecidableEq, Repr

instance : Inhabited Verbosity := ⟨.print⟩

instance : Choice Verbosity where
  setting := "LogLevel"
  names := [(.quiet, ["quiet"]), (.error, ["error"]), (.alert, ["alert"]), (.print, ["print"]),
    (.trace, ["trace"]), (.debug, ["debug"])]

/-- The least grave notices that are shown. The last two settings are named the
other way round than the severities are. -/
def Verbosity.limit : Verbosity → Option Severity
  | .quiet => none
  | .error => some .error
  | .alert => some .warn
  | .print => some .info
  | .trace => some .debug
  | .debug => some .trace

/-- Bits for each pixel of the picture. -/
inductive Depth where
  | eight
  | sixteen
  | thirtyTwo
  deriving DecidableEq, Repr

instance : Inhabited Depth := ⟨.thirtyTwo⟩

namespace Depth

def ofBits (bits : Nat) : Except Error Depth :=
  match bits with
  | 8 => .ok .eight
  | 16 => .ok .sixteen
  | 32 => .ok .thirtyTwo
  | _ => .error (.config (.unsupportedDepth bits))

instance : Setting Depth where
  ofText text :=
    match Text.number? 10 256 text with
    | some bits => ofBits bits
    | none => .error (.config (.badDepth text))

end Depth

end AmstradCpc
