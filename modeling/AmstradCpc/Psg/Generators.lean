/-
The generators of the sound chip. Each is stepped at an eighth of the chip's
clock and has a period that is compared with a counter, so a period that is
lowered below the running counter ends it at the next step. A period of zero
counts as one.
-/
import AmstradCpc.Word

namespace AmstradCpc.Psg

/-! ## Tone -/

/-- A square wave. -/
structure Tone where
  counter : UInt16 := 0
  high : Bool := false
  deriving DecidableEq, Repr, Inhabited

def Tone.step (t : Tone) (period : UInt16) : Tone :=
  let count := t.counter + 1
  if max period 1 ≤ count then { counter := 0, high := !t.high } else { t with counter := count }

/-! ## Noise -/

/-- A feedback register of 17 bits, whose lowest bit is what is heard. -/
structure Noise where
  counter : UInt8 := 0
  register : UInt32 := 1
  high : Bool := false
  deriving DecidableEq, Repr, Inhabited

/-- The register moves down by one bit; the sum of its bits 0 and 3 comes in
at the top. -/
def Noise.shift (r : UInt32) : UInt32 := r >>> 1 ||| ((r ^^^ r >>> 3) &&& 1) <<< 16

def Noise.step (n : Noise) (period : UInt8) : Noise :=
  let count := n.counter + 1
  if max period 1 ≤ count then
    let register := shift n.register
    { counter := 0, register, high := register &&& 1 != 0 }
  else { n with counter := count }

/-! ## Envelope -/

/-- What the four bits of the shape register say. -/
structure Shape where
  /-- The ramp is not a single one that falls silent. -/
  continues : Bool
  /-- The first ramp goes up. -/
  attack : Bool
  /-- Every second ramp goes the other way. -/
  alternate : Bool
  /-- The level stays after the first ramp. -/
  hold : Bool
  deriving DecidableEq, Repr, Inhabited

def Shape.ofByte (v : UInt8) : Shape :=
  { continues := bitOf v 3, attack := bitOf v 2, alternate := bitOf v 1, hold := bitOf v 0 }

/-- A ramp of sixteen levels, which its shape repeats, turns round or ends. -/
structure Envelope where
  counter : UInt32 := 0
  /-- The place on the ramp. -/
  position : UInt8 := 0
  /-- The ramp goes up. -/
  attack : Bool := false
  holding : Bool := false
  deriving DecidableEq, Repr, Inhabited

namespace Envelope

/-- The envelope from its beginning. -/
def start (shape : Shape) : Envelope := { attack := shape.attack }

/-- What follows a finished ramp. -/
def endRamp (e : Envelope) (shape : Shape) : Envelope :=
  if !shape.continues then { counter := 0, position := 15, attack := false, holding := true }
  else
    { counter := 0, position := if shape.hold then 15 else 0,
      attack := e.attack != shape.alternate, holding := shape.hold }

def step (e : Envelope) (period : UInt32) (shape : Shape) : Envelope :=
  if e.holding then e
  else if e.counter + 1 < max period 1 then { e with counter := e.counter + 1 }
  else if e.position + 1 < 16 then { e with counter := 0, position := e.position + 1 }
  else e.endRamp shape

/-- The level, 0 to 15. A ramp that is over rests at the end it went to. -/
def level (e : Envelope) : UInt8 :=
  if e.holding then if e.attack then 15 else 0
  else
    let ramp := min e.position 15
    if e.attack then ramp else 15 - ramp

theorem level_le (e : Envelope) : e.level ≤ 15 := by
  unfold level
  split
  · split <;> decide
  · have h : min e.position 15 ≤ 15 := by
      simp only [Min.min]
      split
      · assumption
      · decide
    simp only [UInt8.le_iff_toNat_le] at h ⊢
    split
    · exact h
    · have sub := UInt8.toNat_sub_of_le 15 (min e.position 15) (by simpa [UInt8.le_iff_toNat_le] using h)
      rw [sub]
      exact Nat.sub_le ..

end Envelope

end AmstradCpc.Psg
