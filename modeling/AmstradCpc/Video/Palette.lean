/-
Colours. The gate array drives each of three guns at one of three levels; a
monitor shows that in colour or as brightness alone; and the picture holds it
in one of three pixel formats.
-/
import AmstradCpc.Config.Choice

namespace AmstradCpc

/-- A colour with eight bits for each gun. -/
structure Rgb where
  red : UInt8
  green : UInt8
  blue : UInt8
  deriving DecidableEq, Repr, Inhabited

namespace Rgb

def map (f : UInt8 → UInt8) (c : Rgb) : Rgb := ⟨f c.red, f c.green, f c.blue⟩

/-- How bright a colour looks, from zero to 255. -/
def luma (c : Rgb) : UInt8 :=
  ((299 * c.red.toNat + 587 * c.green.toNat + 114 * c.blue.toNat) / 1000).toUInt8

/-- Three quarters of the intensity. -/
def dimmed (c : Rgb) : Rgb := c.map fun v => (v.toNat * 3 / 4).toUInt8

end Rgb

/-- A gun that is off, half on or on. -/
inductive GunLevel where
  | off
  | half
  | on
  deriving DecidableEq, Repr, Inhabited

def GunLevel.intensity : GunLevel → UInt8
  | .off => 0x00
  | .half => 0x80
  | .on => 0xFF

/-- The levels of the red, green and blue guns for each hardware colour. Some
colours have two numbers. -/
def inkLevels : Vector (GunLevel × GunLevel × GunLevel) 32 := #v[
  (.half, .half, .half), -- white
  (.half, .half, .half), -- white
  (.off, .on, .half), -- sea green
  (.on, .on, .half), -- pastel yellow
  (.off, .off, .half), -- blue
  (.on, .off, .half), -- purple
  (.off, .half, .half), -- cyan
  (.on, .half, .half), -- pink
  (.on, .off, .half), -- purple
  (.on, .on, .half), -- pastel yellow
  (.on, .on, .off), -- bright yellow
  (.on, .on, .on), -- bright white
  (.on, .off, .off), -- bright red
  (.on, .off, .on), -- bright magenta
  (.on, .half, .off), -- orange
  (.on, .half, .on), -- pastel magenta
  (.off, .off, .half), -- blue
  (.off, .on, .half), -- sea green
  (.off, .on, .off), -- bright green
  (.off, .on, .on), -- bright cyan
  (.off, .off, .off), -- black
  (.off, .off, .on), -- bright blue
  (.off, .half, .off), -- green
  (.off, .half, .on), -- sky blue
  (.half, .off, .half), -- magenta
  (.half, .on, .half), -- pastel green
  (.half, .on, .off), -- lime
  (.half, .on, .on), -- pastel cyan
  (.half, .off, .off), -- red
  (.half, .off, .on), -- mauve
  (.half, .half, .off), -- yellow
  (.half, .half, .on)] -- pastel blue

/-- The lowest five bits of an ink, which are all that the hardware keeps. -/
def inkIndex (ink : UInt8) : Fin 32 := ⟨ink.toNat % 32, Nat.mod_lt _ (by decide)⟩

/-- The colour of an ink on a colour monitor. -/
def inkRgb (ink : UInt8) : Rgb :=
  let (r, g, b) := inkLevels[inkIndex ink]
  ⟨r.intensity, g.intensity, b.intensity⟩

/-! ## Monitors -/

inductive Phosphor where
  | rgb
  | green
  | gray
  deriving DecidableEq, Repr, Inhabited

def Monitor.phosphor : Monitor → Phosphor
  | .color => .rgb
  | .ctm640 => .rgb
  | .ctm644 => .rgb
  | .cm14 => .rgb
  | .green => .green
  | .gt64 => .green
  | .gt65 => .green
  | .gray => .gray
  | .mm12 => .gray

def Phosphor.render (p : Phosphor) (c : Rgb) : Rgb :=
  match p with
  | .rgb => c
  | .green => ⟨0, c.luma, 0⟩
  | .gray => ⟨c.luma, c.luma, c.luma⟩

/-! ## Pixels -/

inductive PixelFormat where
  | rgb332
  | rgb565
  | argb8888
  deriving DecidableEq, Repr, Inhabited

def Depth.format : Depth → PixelFormat
  | .eight => .rgb332
  | .sixteen => .rgb565
  | .thirtyTwo => .argb8888

namespace PixelFormat

/-- The `kept` highest bits of `v`, moved up by `up` bits. -/
def field (v : UInt8) (kept up : UInt32) : UInt32 := (v.toUInt32 >>> (8 - kept)) <<< up

def encode (f : PixelFormat) (c : Rgb) : UInt32 :=
  match f with
  | .rgb332 => field c.red 3 5 ||| field c.green 3 2 ||| field c.blue 2 0
  | .rgb565 => field c.red 5 11 ||| field c.green 6 5 ||| field c.blue 5 0
  | .argb8888 => 0xFF000000 ||| field c.red 8 16 ||| field c.green 8 8 ||| field c.blue 8 0

/-- The lowest bits of `v`, of which `mask` says how many, stretched to a byte. -/
def stretch (v mask : UInt32) : UInt8 := ((v &&& mask) * 255 / mask).toUInt8

/-- The colour of a pixel. -/
def decode (f : PixelFormat) (pixel : UInt32) : Rgb :=
  match f with
  | .rgb332 => ⟨stretch (pixel >>> 5) 7, stretch (pixel >>> 2) 7, stretch pixel 3⟩
  | .rgb565 => ⟨stretch (pixel >>> 11) 31, stretch (pixel >>> 5) 63, stretch pixel 31⟩
  | .argb8888 => ⟨(pixel >>> 16).toUInt8, (pixel >>> 8).toUInt8, pixel.toUInt8⟩

end PixelFormat

/-- The pixels of all inks, for the rows of the picture that are shown at full
and at reduced intensity. -/
structure Palette where
  bright : Vector UInt32 32
  dim : Vector UInt32 32
  deriving DecidableEq, Inhabited

namespace Palette

def ofMonitor (monitor : Monitor) (depth : Depth) : Palette :=
  let shown (ink : Fin 32) := monitor.phosphor.render (inkRgb ink.val.toUInt8)
  { bright := .ofFn fun ink => depth.format.encode (shown ink)
    dim := .ofFn fun ink => depth.format.encode (shown ink).dimmed }

end Palette

end AmstradCpc
