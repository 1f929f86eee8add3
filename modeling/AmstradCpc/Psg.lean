/-
The sound chip (an AY-3-8910): three tone channels, one noise and one
envelope, mixed channel by channel into two sides, and two 8-bit ports. The
output of every clock is averaged over the time of one sample. Sound is
computed in single precision.
-/
import AmstradCpc.Psg.Generators

namespace AmstradCpc

namespace Psg

/-! ## What is fixed -/

structure RegisterInfo where
  name : String
  /-- The bits that the register has. -/
  mask : UInt8
  deriving DecidableEq, Repr, Inhabited

def registerTable : Vector RegisterInfo 16 := #v[
  ⟨"channel-a-fine-tune", 0xFF⟩,
  ⟨"channel-a-coarse-tune", 0x0F⟩,
  ⟨"channel-b-fine-tune", 0xFF⟩,
  ⟨"channel-b-coarse-tune", 0x0F⟩,
  ⟨"channel-c-fine-tune", 0xFF⟩,
  ⟨"channel-c-coarse-tune", 0x0F⟩,
  ⟨"noise-period", 0x1F⟩,
  ⟨"mixer-and-io-control", 0xFF⟩,
  ⟨"channel-a-amplitude", 0x1F⟩,
  ⟨"channel-b-amplitude", 0x1F⟩,
  ⟨"channel-c-amplitude", 0x1F⟩,
  ⟨"envelope-fine-tune", 0xFF⟩,
  ⟨"envelope-coarse-tune", 0xFF⟩,
  ⟨"envelope-shape", 0x0F⟩,
  ⟨"io-port-a", 0xFF⟩,
  ⟨"io-port-b", 0xFF⟩]

/-- The output for each amplitude, the loudest being one. -/
def levels : Vector Float32 16 := #v[
  0.0000, 0.0137, 0.0205, 0.0291, 0.0423, 0.0618, 0.0847, 0.1369,
  0.1691, 0.2647, 0.3527, 0.4499, 0.5765, 0.7258, 0.8819, 1.0000]

inductive Port where
  | a
  | b
  deriving DecidableEq, Repr, Inhabited

/-- Where the channels are heard. -/
inductive Stereo where
  | mono
  /-- The first channel on the left, the second in the middle, the third on
  the right. -/
  | abc
  deriving DecidableEq, Repr, Inhabited

/-- One moment of sound on both sides. -/
structure Sample where
  left : Float32 := 0
  right : Float32 := 0
  deriving Inhabited

end Psg

structure Psg where
  registers : Vector UInt8 16 := .replicate 16 0
  /-- The register that reads and writes go to. -/
  selected : UInt8 := 0
  toneA : Psg.Tone := {}
  toneB : Psg.Tone := {}
  toneC : Psg.Tone := {}
  noise : Psg.Noise := {}
  envelope : Psg.Envelope := {}
  /-- Clocks since the generators were last stepped. -/
  prescaler : UInt8 := 0
  stereo : Psg.Stereo := .abc
  clocksPerSample : Float32
  /-- Clocks into the current sample. -/
  phase : Float32 := 0
  /-- The sum of what was put out since the last sample, and of how many
  clocks. -/
  sum : Psg.Sample := {}
  summed : UInt32 := 0
  /-- Samples that nobody has taken yet. -/
  buffer : Array Psg.Sample := #[]
  deriving Inhabited

namespace Psg

/-- A silent chip that is clocked at `clock` and makes `rate` samples, both per
second. -/
def initial (clock rate : UInt32) : Psg := { clocksPerSample := clock.toFloat32 / rate.toFloat32 }

/-- Clears the registers and stops the generators. Sound that was already made
is kept. -/
def reset (p : Psg) : Psg :=
  { stereo := p.stereo, clocksPerSample := p.clocksPerSample, phase := p.phase, sum := p.sum,
    summed := p.summed, buffer := p.buffer }

/-! ## Registers -/

/-- The register numbered `i`; all bits are set where there is none. -/
def peek (p : Psg) (i : Nat) : UInt8 := p.registers[i]?.getD 0xFF

/-- Sets the register numbered `i`, keeping the bits it has, and nothing else. -/
def poke (p : Psg) (i : Nat) (v : UInt8) : Psg :=
  match registerTable[i]? with
  | some info => { p with registers := p.registers.setIfInBounds i (v &&& info.mask) }
  | none => p

def mixer (p : Psg) : UInt8 := p.registers[7]

/-- The direction of a port is a bit of the mixer register. -/
def isOutput (p : Psg) : Port → Bool
  | .a => bitOf p.mixer 6
  | .b => bitOf p.mixer 7

def shape (p : Psg) : Shape := .ofByte p.registers[13]

def select (p : Psg) (v : UInt8) : Psg := { p with selected := v }

/-- Writes the selected register, if there is one, and answers what that puts
on the pins of a port. Writing the shape starts the envelope again. -/
def write (p : Psg) (v : UInt8) : Psg × Option (Port × UInt8) :=
  let p := p.poke p.selected.toNat v
  match p.selected with
  | 13 => ({ p with envelope := .start p.shape }, none)
  | 14 => (p, if p.isOutput .a then some (.a, v) else none)
  | 15 => (p, if p.isOutput .b then some (.b, v) else none)
  | _ => (p, none)

/-- Reads the selected register. A port that is an input has the level of its
pins. -/
def read (p : Psg) (level : Port → UInt8) : UInt8 :=
  match p.selected with
  | 14 => if p.isOutput .a then p.peek 14 else level .a
  | 15 => if p.isOutput .b then p.peek 15 else level .b
  | i => p.peek i.toNat

/-! ## Sound -/

def tonePeriodA (p : Psg) : UInt16 := joinBytes p.registers[1] p.registers[0]
def tonePeriodB (p : Psg) : UInt16 := joinBytes p.registers[3] p.registers[2]
def tonePeriodC (p : Psg) : UInt16 := joinBytes p.registers[5] p.registers[4]
def noisePeriod (p : Psg) : UInt8 := p.registers[6]

/-- The envelope is stepped as often as the tones are, and takes twice as long. -/
def envelopePeriod (p : Psg) : UInt32 := (joinBytes p.registers[12] p.registers[11]).toUInt32 * 2

def stepGenerators (p : Psg) : Psg :=
  { p with
    toneA := p.toneA.step p.tonePeriodA
    toneB := p.toneB.step p.tonePeriodB
    toneC := p.toneC.step p.tonePeriodC
    noise := p.noise.step p.noisePeriod
    envelope := p.envelope.step p.envelopePeriod p.shape }

/-- The amplitude of a channel, 0 to 15: its own, or that of the envelope. -/
def amplitude (p : Psg) (register : UInt8) : UInt8 :=
  if bitOf register 4 then p.envelope.level else register &&& 0x0F

/-- What a channel puts out: it is up while both its tone and the noise are up
or switched off, and down otherwise. -/
def channel (p : Psg) (n : UInt8) (tone : Tone) (register : UInt8) : Float32 :=
  let toneUp := tone.high || bitOf p.mixer n
  let noiseUp := p.noise.high || bitOf p.mixer (n + 3)
  let volume := levels[(p.amplitude register).toNat]?.getD 0
  if toneUp && noiseUp then volume * 0.5 else -volume * 0.5

/-- Three channels on one side, each with its share. -/
def side (a b c shareA shareB shareC : Float32) : Float32 :=
  (0 + a * shareA + b * shareB + c * shareC) / 0.75

def output (p : Psg) : Sample :=
  let a := p.channel 0 p.toneA p.registers[8]
  let b := p.channel 1 p.toneB p.registers[9]
  let c := p.channel 2 p.toneC p.registers[10]
  match p.stereo with
  | .mono => { left := side a b c 0.5 0.5 0.5, right := side a b c 0.5 0.5 0.5 }
  | .abc => { left := side a b c 1 0.5 0, right := side a b c 0 0.5 1 }

/-- Steps the generators at every eighth clock. -/
def prescale (p : Psg) : Psg :=
  if p.prescaler + 1 = 8 then { p with prescaler := 0 }.stepGenerators
  else { p with prescaler := p.prescaler + 1 }

/-- Adds what is put out to the current sample, and ends the sample when its
time is over. -/
def collect (p : Psg) : Psg :=
  let now := p.output
  let sum : Sample := { left := p.sum.left + now.left, right := p.sum.right + now.right }
  let summed := p.summed + 1
  let phase := p.phase + 1
  if p.clocksPerSample ≤ phase then
    let n := summed.toFloat32
    { p with
      sum := {}, summed := 0, phase := phase - p.clocksPerSample,
      buffer := p.buffer.push { left := sum.left / n, right := sum.right / n } }
  else { p with sum, summed, phase }

def clock (p : Psg) : Psg := p.prescale.collect

/-- Whether the chip can be clocked `n` times more. The clocks of a sample are counted in a word, and the
counter runs out of it in a sample that never ends: in single precision the phase stays at `2 ^ 24`
once it is there. -/
def canClock (p : Psg) (n : Nat) : Bool := p.clocksPerSample ≤ 16777216 || p.summed.toNat + n < UInt32.size

/-- The samples made since they were last taken. -/
def takeBuffer (p : Psg) : Array Sample × Psg := (p.buffer, { p with buffer := #[] })

/-! ## Reading what was written -/

theorem peek_poke_self (p : Psg) {i : Nat} (h : i < 16) (v : UInt8) :
    (p.poke i v).peek i = v &&& (registerTable[i]).mask := by
  simp [peek, poke, h]

theorem peek_poke_other (p : Psg) {i j : Nat} (ne : i ≠ j) (v : UInt8) :
    (p.poke i v).peek j = p.peek j := by
  unfold poke
  split
  · simp [peek, Vector.getElem?_setIfInBounds_ne ne]
  · rfl

end Psg

end AmstradCpc
