/-
Configuration files. A file is one JSON object with a member for each setting
that is not to have its default, or an array of the settings in their order.
Members that are no settings are passed over; a setting that is there twice, or
has a value that it cannot have, makes the file useless.
-/
import AmstradCpc.Config
import AmstradCpc.Json.Parse
import AmstradCpc.Storage

namespace AmstradCpc

namespace JsonValue

/-- A name by itself, or as the only member of an object, with nothing in it. -/
def asName? : JsonValue → Option String
  | .string text => decode? text
  | .object [(text, .null)] => decode? text
  | _ => none

def asChoice? {α : Type} [Choice α] (v : JsonValue) : Option α := v.asName?.bind Choice.ofFileName?

def asMemory? (v : JsonValue) : Option MemorySize := v.asName?.bind MemorySize.ofFileName?

def asText? : JsonValue → Option String
  | .string text => decode? text
  | _ => none

def asFlag? : JsonValue → Option Bool
  | .bool b => some b
  | _ => none

/-- A byte in base ten, with neither a sign nor needless zeros. -/
def byteOfDigits? (text : List Char) : Option UInt8 :=
  match text with
  | [] => none
  | ['0'] => some 0
  | '0' :: _ => none
  | text =>
    if text.all Char.isDigit then
      let n := text.foldl (fun n c => n * 10 + (c.toNat - 48)) 0
      if n < 256 then some n.toUInt8 else none
    else none

def asDepth? : JsonValue → Option Depth
  | .number text => (byteOfDigits? text).bind fun bits => (Depth.ofBits bits.toNat).toOption
  | _ => none

/-- Nothing, or a value that `read` takes. -/
def asOptional? {α : Type} (read : JsonValue → Option α) : JsonValue → Option (Option α)
  | .null => some none
  | v => (read v).map some

/-- Files by slot; the last one of a slot counts. -/
def asSlots? : JsonValue → Option SlotFiles
  | .object members => members.foldlM (fun slots (name, v) => do
      let slot ← byteOfDigits? name
      let path ← v.asText?
      return slots.insert slot path) []
  | _ => none

end JsonValue

namespace Config

open JsonValue

/-- The settings: their names, and how each takes a value. -/
def settings : List (String × (Config → JsonValue → Option Config)) := [
  ("company", fun c v => v.asChoice?.map ({ c with company := · })),
  ("machine", fun c v => v.asChoice?.map ({ c with model := · })),
  ("monitor", fun c v => v.asChoice?.map ({ c with monitor := · })),
  ("refresh", fun c v => v.asChoice?.map ({ c with refresh := · })),
  ("keyboard", fun c v => v.asChoice?.map ({ c with language := · })),
  ("memory", fun c v => (v.asOptional? asMemory?).map ({ c with memory := · })),
  ("turbo", fun c v => v.asFlag?.map ({ c with turbo := · })),
  ("log-level", fun c v => v.asChoice?.map ({ c with verbosity := · })),
  ("bpp", fun c v => v.asDepth?.map ({ c with depth := · })),
  ("system-rom", fun c v => (v.asOptional? asText?).map ({ c with systemRom := · })),
  ("amsdos-rom", fun c v => (v.asOptional? asText?).map ({ c with amsdosRom := · })),
  ("expansion-roms", fun c v => v.asSlots?.map ({ c with expansionRoms := · })),
  ("drive0", fun c v => (v.asOptional? asText?).map ({ c with drive0 := · })),
  ("drive1", fun c v => (v.asOptional? asText?).map ({ c with drive1 := · }))]

/-- Takes members one by one; `seen` are the settings there have been. -/
def takeMembers (c : Config) (seen : List String) : List (List Char × JsonValue) → Option Config
  | [] => some c
  | (text, v) :: rest => do
    let name ← decode? text
    match settings.lookup name with
    | none => takeMembers c seen rest
    | some take =>
      if seen.contains name then none
      else takeMembers (← take c v) (name :: seen) rest

/-- Takes values in the order of the settings; there may be fewer. -/
def takeItems (c : Config) : List (String × (Config → JsonValue → Option Config)) →
    List JsonValue → Option Config
  | _, [] => some c
  | [], _ :: _ => none
  | (_, take) :: settings, v :: rest => do takeItems (← take c v) settings rest

def ofJson? : JsonValue → Option Config
  | .object members => takeMembers {} [] members
  | .array items => takeItems {} settings items
  | _ => none

/-- The configuration that a text describes. -/
def ofText? (text : String) : Option Config := (parse? text).bind ofJson?

/-- Reads a configuration file. -/
def load {m : Type → Type} [Monad m] [MonadFiles m] (path : String) : m (Except Error Config) := do
  match ← MonadFiles.readText path with
  | .error problem => return .error (.file path problem)
  | .ok text =>
    match ofText? text with
    | some config => return .ok config
    | none => return .error (.config (.malformed path))

end Config

end AmstradCpc
