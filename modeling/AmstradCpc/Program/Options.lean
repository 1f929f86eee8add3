/-
The command line: what options there are, what they change in the
configuration, and what they ask for besides.
-/
import AmstradCpc.Config

namespace AmstradCpc

structure Options where
  configFile : Option String := none
  -- Texts for settings; they need not have a meaning.
  model : Option String := none
  memory : Option String := none
  refresh : Option String := none
  monitor : Option String := none
  language : Option String := none
  company : Option String := none
  depth : Option String := none
  verbosity : Option String := none
  turbo : Bool := false
  /-- Nobody watches, so frames need not keep pace. -/
  headless : Bool := false
  systemRom : Option String := none
  amsdosRom : Option String := none
  /-- Files for slots, in the order in which they were given. -/
  expansionRoms : List (UInt8 × String) := []
  drive0 : Option String := none
  drive1 : Option String := none
  /-- The snapshot to begin with. -/
  snapshot : Option String := none
  /-- How many frames to run. -/
  frames : Nat := 250
  -- Files to write at the end.
  screenshot : Option String := none
  sound : Option String := none
  savedSnapshot : Option String := none
  deriving DecidableEq, Repr, Inhabited

namespace Options

/-- What the user gets to see who asks for help. -/
def usage : List String := [
  "Usage: emu-cpc [OPTIONS]",
  "",
  "Options:",
  "  --config <file>         JSON machine configuration",
  "  --machine <type>        cpc464, cpc664, cpc6128 [default: cpc6128]",
  "  --memory <size>         64k .. 512k [default: from machine]",
  "  --refresh <rate>        50hz or 60hz [default: 50hz]",
  "  --monitor <type>        color, green, gray, ctm640, ctm644, gt64, gt65, cm14, mm12",
  "  --keyboard <layout>     english, french, german, spanish, danish",
  "  --company <name>        isp, triumph, saisho, solavox, awa, schneider, orion, amstrad",
  "  --bpp <bits>            8, 16 or 32 [default: 32]",
  "  --log-level <level>     quiet, error, alert, print, trace, debug",
  "  --turbo                 Run as fast as possible",
  "  --headless              Never sleep between frames",
  "  --sys-rom <file>        32K system ROM (firmware + BASIC)",
  "  --dos-rom <file>        AMSDOS ROM for expansion slot 7",
  "  --rom<N> <file>         Expansion ROM for slot N (0-15)",
  "  --drive0 <file>         DSK image for drive A",
  "  --drive1 <file>         DSK image for drive B",
  "  --snapshot <file>       Load an SNA snapshot",
  "  --frames <n>            Number of frames to run [default: 250]",
  "  --screenshot <file>     Save a PNG screenshot after the last frame",
  "  --audio <file>          Save a WAV dump of the PSG output",
  "  --save-snapshot <file>  Save an SNA snapshot after the last frame"]

/-! ## Reading the command line -/

/-- Why a command line cannot be followed. -/
inductive Problem where
  | missingValue (option : String)
  | badFrameCount (text : String)
  | unknown (option : String)
  deriving DecidableEq, Repr

def Problem.message : Problem → String
  | .missingValue option => s!"Missing value for {option}"
  | .badFrameCount text => s!"Invalid frame count: {text}"
  | .unknown option => s!"Unknown argument: {option}"

/-- The slot that an option puts a ROM into. -/
def romSlot? (option : String) : Option UInt8 :=
  match option.toList with
  | '-' :: '-' :: 'r' :: 'o' :: 'm' :: digits =>
    match Text.number? 10 256 (String.ofList digits) with
    | some slot => if slot.toUInt8 ≤ Config.lastSlot then some slot.toUInt8 else none
    | none => none
  | _ => none

/-- Takes an option that has a value. -/
def take (o : Options) (option value : String) : Except Problem Options :=
  match option with
  | "--config" => .ok { o with configFile := value }
  | "--machine" => .ok { o with model := value }
  | "--memory" => .ok { o with memory := value }
  | "--refresh" => .ok { o with refresh := value }
  | "--monitor" => .ok { o with monitor := value }
  | "--keyboard" => .ok { o with language := value }
  | "--company" => .ok { o with company := value }
  | "--bpp" => .ok { o with depth := value }
  | "--log-level" => .ok { o with verbosity := value }
  | "--sys-rom" => .ok { o with systemRom := value }
  | "--dos-rom" => .ok { o with amsdosRom := value }
  | "--drive0" => .ok { o with drive0 := value }
  | "--drive1" => .ok { o with drive1 := value }
  | "--snapshot" => .ok { o with snapshot := value }
  | "--frames" =>
    match Text.number? 10 UInt32.size value with
    | some frames => .ok { o with frames }
    | none => .error (.badFrameCount value)
  | "--screenshot" => .ok { o with screenshot := value }
  | "--audio" => .ok { o with sound := value }
  | "--save-snapshot" => .ok { o with savedSnapshot := value }
  | option =>
    match romSlot? option with
    | some slot => .ok { o with expansionRoms := o.expansionRoms ++ [(slot, value)] }
    | none => .error (.unknown option)

/-- What the user asks for. -/
inductive Request where
  | help
  | run (options : Options)
  deriving DecidableEq, Repr

/-- Takes arguments one after the other. Whoever asks for help gets it, whatever
may follow. -/
def takeAll (o : Options) : List String → Except Problem Request
  | [] => .ok (.run o)
  | "--turbo" :: rest => takeAll { o with turbo := true } rest
  | "--headless" :: rest => takeAll { o with headless := true } rest
  | "--help" :: _ => .ok .help
  | "-h" :: _ => .ok .help
  | [option] => .error (.missingValue option)
  | option :: value :: rest => do takeAll (← o.take option value) rest

def ofArguments (arguments : List String) : Except Problem Request := takeAll {} arguments

/-! ## Changing the configuration -/

/-- The value that a setting gets. Without a text, or with one that has no
meaning, it keeps the value that it has. -/
def override {α : Type} [Setting α] (text : Option String) (value : α) : α :=
  match text with
  | some text => (Setting.ofText text).toOption.getD value
  | none => value

/-- What is said about a text for a setting that has no meaning. -/
def complaint (α : Type) [Setting α] (text : Option String) : List Notice :=
  match text.map (Setting.ofText (α := α)) with
  | some (.error e) => [⟨.warn, .program, e.message ++ ", keeping the previous setting"⟩]
  | _ => []

/-- The configuration with the changes that the user wants. Installed memory is
settled as soon as it is spoken of, even if in vain. -/
def configure (o : Options) (c : Config) : Config :=
  let model := override o.model c.model
  let size := { c with model }.memorySize
  { model
    refresh := override o.refresh c.refresh
    monitor := override o.monitor c.monitor
    language := override o.language c.language
    company := override o.company c.company
    depth := override o.depth c.depth
    verbosity := override o.verbosity c.verbosity
    memory := if o.memory.isSome then some (override o.memory size) else c.memory
    turbo := c.turbo || o.turbo
    systemRom := o.systemRom <|> c.systemRom
    amsdosRom := o.amsdosRom <|> c.amsdosRom
    expansionRoms := o.expansionRoms.foldl (fun slots (slot, path) => slots.insert slot path)
      c.expansionRoms
    drive0 := o.drive0 <|> c.drive0
    drive1 := o.drive1 <|> c.drive1 }

/-- What there is to say about the changes. -/
def complaints (o : Options) : List Notice :=
  complaint Model o.model ++ complaint Refresh o.refresh ++ complaint Monitor o.monitor
    ++ complaint Language o.language ++ complaint Company o.company ++ complaint Depth o.depth
    ++ complaint Verbosity o.verbosity ++ complaint MemorySize o.memory

end Options

end AmstradCpc
