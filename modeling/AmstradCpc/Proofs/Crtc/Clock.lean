/-
One clock of the display controller, a field at a time. Its registers stay, and a counter goes on when
the one before it wraps. Of each of the two sync pulses, which are alike, a unit goes by, after
which it begins again if its counter has come to its place (`pulse_clock`). A signal is up as long
as there is something left of its pulse (`counted_clock`).
-/
import Mathlib.Logic.Function.Iterate
import AmstradCpc.Crtc

namespace AmstradCpc

/-- The two sync signals. -/
inductive Sync where
  | horizontal
  | vertical
  deriving DecidableEq

/-- A sync signal, and what is left of its pulse. -/
structure Pulse where
  up : Bool
  left : UInt8

namespace Crtc

/-- The signal as the controller puts it out. -/
def sync (c : Crtc) : Sync → Bool
  | .horizontal => c.hsync
  | .vertical => c.vsync

theorem sync_vertical (c : Crtc) : c.sync .vertical = c.vsync := rfl

/-! ## The counters -/

/-- What comes after `v` in a counter that goes up to `last`. -/
def following (last v : UInt8) : UInt8 := if v + 1 = last + 1 then 0 else v + 1

/-- The counter may go up to 255: the sums are those of bytes on both sides of the test. -/
theorem toNat_following {last v : UInt8} (h : v ≤ last) :
    (following last v).toNat = (v.toNat + 1) % (last.toNat + 1) := by
  have hle : v.toNat ≤ last.toNat := UInt8.le_iff_toNat_le.mp h
  have hlast := last.toNat_lt
  unfold following
  split
  next heq =>
    rw [(UInt8.add_left_inj 1).mp heq, Nat.mod_self]
    rfl
  next hne =>
    have hlt : v.toNat ≠ last.toNat := fun heq => hne (by rw [UInt8.toNat_inj.mp heq])
    rw [Nat.mod_eq_of_lt (by omega), UInt8.toNat_add, UInt8.toNat_one, Nat.mod_eq_of_lt (by omega)]

theorem following_self (last : UInt8) : following last last = 0 := if_pos rfl

theorem following_of_ne {last v : UInt8} (h : v ≠ last) : following last v = v + 1 :=
  if_neg (mt (UInt8.add_left_inj 1).mp h)

/-- The next character is the first one of a line. -/
def endsLine (c : Crtc) : Bool := (c.hCounter + 1).toNat == c.horizontalTotal.toNat + 1

/-- The next line is the first one of a row. -/
def endsRow (c : Crtc) : Bool := c.scanline + 1 == c.maximumScanline + 1

theorem endsRow_iff (c : Crtc) : c.endsRow = true ↔ c.scanline = c.maximumScanline := by
  rw [endsRow, beq_iff_eq, UInt8.add_left_inj]

theorem registers_clock (c : Crtc) : c.clock.registers = c.registers := by
  simp only [clock, startVsync, startHsync, nextChar, nextLine, nextRow, stepVsync, stepHsync,
    apply_ite registers, ite_self]

theorem address_clock (c : Crtc) : c.clock.address = c.address := by
  simp only [clock, startVsync, startHsync, nextChar, nextLine, nextRow, stepVsync, stepHsync,
    apply_ite address, ite_self]

theorem registers_clocks (c : Crtc) (n : Nat) : (clock^[n] c).registers = c.registers := by
  induction n with
  | zero => rfl
  | succ n ih => rw [Function.iterate_succ_apply', registers_clock, ih]

theorem horizontalTotal_clocks (c : Crtc) (n : Nat) : (clock^[n] c).horizontalTotal = c.horizontalTotal :=
  congrArg (·[0]) (c.registers_clocks n)

theorem verticalTotal_clocks (c : Crtc) (n : Nat) : (clock^[n] c).verticalTotal = c.verticalTotal :=
  congrArg (·[4]) (c.registers_clocks n)

theorem verticalSyncPosition_clocks (c : Crtc) (n : Nat) :
    (clock^[n] c).verticalSyncPosition = c.verticalSyncPosition :=
  congrArg (·[7]) (c.registers_clocks n)

theorem maximumScanline_clocks (c : Crtc) (n : Nat) : (clock^[n] c).maximumScanline = c.maximumScanline :=
  congrArg (·[9]) (c.registers_clocks n)

/-- From 255 on the counter would never get there: it is a byte. -/
theorem endsLine_iff {c : Crtc} (htotal : c.horizontalTotal ≤ 254) :
    c.endsLine = true ↔ c.hCounter = c.horizontalTotal := by
  have htop : c.horizontalTotal.toNat ≤ 254 := UInt8.le_iff_toNat_le.mp htotal
  have hnat : c.horizontalTotal.toNat + 1 = (c.horizontalTotal + 1).toNat := by
    rw [UInt8.toNat_add, UInt8.toNat_one, Nat.mod_eq_of_lt (by omega)]
  rw [endsLine, beq_iff_eq, hnat, UInt8.toNat_inj, UInt8.add_left_inj]

theorem endsLine_of_total_eq {c : Crtc} (htotal : c.horizontalTotal = 255) : c.endsLine = false := by
  have hnext := (c.hCounter + 1).toNat_lt
  rw [endsLine, htotal, beq_eq_false_iff_ne]
  exact Nat.ne_of_lt hnext

/-- The character counter comes back to zero whether or not the line ends there. -/
theorem hCounter_clock (c : Crtc) : c.clock.hCounter = following c.horizontalTotal c.hCounter := by
  have hclock : c.clock.hCounter = if c.endsLine then 0 else c.hCounter + 1 := by
    simp only [clock, startVsync, startHsync, nextChar, nextLine, nextRow, stepVsync, stepHsync,
      apply_ite hCounter, apply_ite registers, ite_self, endsLine, horizontalTotal, beq_iff_eq]
  obtain htotal | htotal : c.horizontalTotal = 255 ∨ c.horizontalTotal ≤ 254 := by
    have htop := c.horizontalTotal.toNat_lt
    rw [UInt8.le_iff_toNat_le, ← UInt8.toNat_inj]
    show c.horizontalTotal.toNat = 255 ∨ c.horizontalTotal.toNat ≤ 254
    omega
  · -- The sum of bytes on the other side of the test is zero too.
    have hzero : (255 : UInt8) + 1 = 0 := rfl
    rw [hclock, endsLine_of_total_eq htotal, htotal, following, hzero, if_neg Bool.false_ne_true]
    split
    next hwraps => exact hwraps
    next => rfl
  · simp only [hclock, endsLine_iff htotal, following, UInt8.add_left_inj]

theorem scanline_clock (c : Crtc) : c.clock.scanline =
    if c.endsLine then following c.maximumScanline c.scanline else c.scanline := by
  simp only [clock, startVsync, startHsync, nextChar, nextLine, nextRow, stepVsync, stepHsync,
    apply_ite hCounter, apply_ite scanline, apply_ite registers, ite_self, endsLine, following,
    horizontalTotal, maximumScanline, beq_iff_eq]
  rfl

theorem vCounter_clock (c : Crtc) : c.clock.vCounter =
    if c.endsLine && c.endsRow then following c.verticalTotal c.vCounter else c.vCounter := by
  simp only [clock, startVsync, startHsync, nextChar, nextLine, nextRow, stepVsync, stepHsync,
    apply_ite hCounter, apply_ite scanline, apply_ite vCounter, apply_ite registers, ite_self, endsLine,
    endsRow, following, horizontalTotal, maximumScanline, verticalTotal, beq_iff_eq, Bool.and_eq_true,
    ite_and]
  rfl

end Crtc

/-! ## A pulse -/

namespace Pulse

/-- A unit of the pulse goes by. The last one ends it. -/
def pass (p : Pulse) : Pulse := if 0 < p.left then ⟨p.up && p.left - 1 != 0, p.left - 1⟩ else p

/-- A pulse that is over begins again, if this is the place. -/
def start (p : Pulse) (here : Bool) (width : UInt8) : Pulse := if !p.up && here then ⟨true, width⟩ else p

/-- The signal is up as long as there is something left of the pulse. -/
def Counted (p : Pulse) : Prop := p.up = true ↔ 0 < p.left.toNat

variable {p : Pulse}

theorem pass_counted (h : p.Counted) : p.pass.Counted ∧ p.pass.left.toNat = p.left.toNat - 1 := by
  have hcounter := UInt8.lt_iff_toNat_lt (a := 0) (b := p.left)
  unfold pass
  split
  next hpos =>
    have hleft : (p.left - 1).toNat = p.left.toNat - 1 :=
      UInt8.toNat_sub_of_le _ _ (UInt8.le_iff_toNat_le.mpr (hcounter.mp hpos))
    have hup : p.up = true := h.mpr (hcounter.mp hpos)
    refine ⟨?_, hleft⟩
    simp only [Counted, hup, Bool.true_and, bne_iff_ne, ne_eq, ← UInt8.toNat_inj, hleft, UInt8.toNat_zero,
      Nat.pos_iff_ne_zero]
  next hzero =>
    have hnone : ¬0 < p.left.toNat := fun hpos => hzero (hcounter.mpr hpos)
    exact ⟨h, by omega⟩

theorem start_counted (h : p.Counted) (here : Bool) {width : UInt8} (hwidth : 0 < width.toNat) :
    (p.start here width).Counted ∧ (p.start here width).left.toNat =
      if p.left.toNat = 0 ∧ here = true then width.toNat else p.left.toNat := by
  have hup : p.up = true ↔ 0 < p.left.toNat := h
  have hdown : p.up = false ↔ p.left.toNat = 0 := by
    rw [← Bool.not_eq_true, hup, Nat.pos_iff_ne_zero, not_not]
  unfold start
  by_cases hbegins : p.left.toNat = 0 ∧ here = true
  · rw [if_pos (by simpa [hdown] using hbegins), if_pos hbegins]
    exact ⟨iff_of_true rfl hwidth, rfl⟩
  · rw [if_neg (by simpa [hdown] using hbegins), if_neg hbegins]
    exact ⟨h, rfl⟩

end Pulse

/-! ## The two pulses -/

namespace Crtc

def pulse (c : Crtc) : Sync → Pulse
  | .horizontal => ⟨c.hsync, c.hsyncCounter⟩
  | .vertical => ⟨c.vsync, c.vsyncCounter⟩

/-- With the clock a unit of the pulse goes by: a character of the one, a line of the other. -/
def passes (c : Crtc) : Sync → Bool
  | .horizontal => true
  | .vertical => c.endsLine

/-- The counter of the pulse is where it begins. -/
def inPlace (c : Crtc) : Sync → Bool
  | .horizontal => c.hCounter == c.horizontalSyncPosition
  | .vertical => c.vCounter == c.verticalSyncPosition

def pulseWidth (c : Crtc) : Sync → UInt8
  | .horizontal => width (c.syncWidth &&& 0x0F)
  | .vertical => width (c.syncWidth >>> 4)

/-- The half of the register that has the width of the pulse. -/
def widthDigit (c : Crtc) : Sync → Nat
  | .horizontal => c.syncWidth.toNat % 16
  | .vertical => c.syncWidth.toNat / 16

theorem toNat_pulseWidth (c : Crtc) (s : Sync) :
    (c.pulseWidth s).toNat = if c.widthDigit s = 0 then 16 else c.widthDigit s := by
  have hlow : (c.syncWidth &&& 0x0F).toNat = c.syncWidth.toNat % 16 := by
    rw [UInt8.toNat_and]
    exact Nat.and_two_pow_sub_one_eq_mod _ 4
  have hhigh : (c.syncWidth >>> 4).toNat = c.syncWidth.toNat / 16 := by
    rw [UInt8.toNat_shiftRight]
    exact Nat.shiftRight_eq_div_pow _ 4
  cases s <;>
    simp only [pulseWidth, widthDigit, width, apply_ite UInt8.toNat, ← UInt8.toNat_inj, hlow, hhigh,
      UInt8.toNat_zero] <;>
    rfl

theorem pulseWidth_bounds (c : Crtc) (s : Sync) : 0 < (c.pulseWidth s).toNat ∧ (c.pulseWidth s).toNat ≤ 16 := by
  have hwidth := c.syncWidth.toNat_lt
  have hdigit : c.widthDigit s ≤ 16 := by cases s <;> simp only [widthDigit] <;> omega
  rw [toNat_pulseWidth]
  by_cases hzero : c.widthDigit s = 0
  · simp [hzero]
  · rw [if_neg hzero]
    exact ⟨Nat.pos_of_ne_zero hzero, hdigit⟩

theorem pulseWidth_of_registers {c d : Crtc} (h : d.registers = c.registers) (s : Sync) :
    d.pulseWidth s = c.pulseWidth s := by
  cases s <;> simp only [pulseWidth, syncWidth, h]

section Parts

variable (c : Crtc) (s : Sync)

theorem pulse_stepHsync : c.stepHsync.pulse s = if s = .horizontal then (c.pulse s).pass else c.pulse s := by
  cases s with
  | horizontal => exact apply_ite (pulse · .horizontal) ..
  | vertical => exact (apply_ite (pulse · .vertical) ..).trans (ite_self _)

theorem pulse_stepVsync : c.stepVsync.pulse s = if s = .vertical then (c.pulse s).pass else c.pulse s := by
  cases s with
  | horizontal => exact (apply_ite (pulse · .horizontal) ..).trans (ite_self _)
  | vertical => exact apply_ite (pulse · .vertical) ..

theorem pulse_nextChar : c.nextChar.pulse s =
    if s = .vertical then if c.endsLine then (c.pulse s).pass else c.pulse s else c.pulse s := by
  have hline (d : Crtc) : d.nextLine.pulse s = d.stepVsync.pulse s := by
    cases s <;> exact (apply_ite (pulse · _) ..).trans (ite_self _)
  have hfirst : ({ c with hCounter := 0 } : Crtc).pulse s = c.pulse s := by cases s <;> rfl
  have hnext : ({ c with hCounter := c.hCounter + 1 } : Crtc).pulse s = c.pulse s := by cases s <;> rfl
  unfold nextChar
  by_cases hends : (c.hCounter + 1).toNat = c.horizontalTotal.toNat + 1
  · rw [if_pos hends, if_pos (show c.endsLine = true from beq_iff_eq.mpr hends), hline, pulse_stepVsync, hfirst]
  · rw [if_neg hends, if_neg (show ¬c.endsLine = true from mt beq_iff_eq.mp hends), ite_self, hnext]

theorem pulse_startHsync : c.startHsync.pulse s =
    if s = .horizontal then (c.pulse s).start (c.inPlace s) (c.pulseWidth s) else c.pulse s := by
  cases s with
  | horizontal => exact apply_ite (pulse · .horizontal) ..
  | vertical => exact (apply_ite (pulse · .vertical) ..).trans (ite_self _)

theorem pulse_startVsync : c.startVsync.pulse s =
    if s = .vertical then (c.pulse s).start (c.inPlace s) (c.pulseWidth s) else c.pulse s := by
  cases s with
  | horizontal => exact (apply_ite (pulse · .horizontal) ..).trans (ite_self _)
  | vertical => exact apply_ite (pulse · .vertical) ..

theorem inPlace_startHsync : c.startHsync.inPlace s = c.inPlace s := by
  cases s <;> exact (apply_ite (inPlace · _) ..).trans (ite_self _)

theorem inPlace_startVsync : c.startVsync.inPlace s = c.inPlace s := by
  cases s <;> exact (apply_ite (inPlace · _) ..).trans (ite_self _)

/-- What a clock does to a pulse. The place is looked at after the counters have gone on. -/
theorem pulse_clock : c.clock.pulse s =
    (if c.passes s then (c.pulse s).pass else c.pulse s).start (c.clock.inPlace s) (c.pulseWidth s) := by
  have hends : c.stepHsync.endsLine = c.endsLine := (apply_ite endsLine ..).trans (ite_self _)
  have hcounted : c.stepHsync.nextChar.registers = c.registers := by
    simp only [nextChar, nextLine, nextRow, stepVsync, stepHsync, apply_ite registers, ite_self]
  have hstarted : c.stepHsync.nextChar.startHsync.registers = c.registers := by
    rw [← hcounted]
    exact (apply_ite registers ..).trans (ite_self _)
  have hplace : c.clock.inPlace s = c.stepHsync.nextChar.inPlace s := by
    rw [clock, inPlace_startVsync, inPlace_startHsync]
  rw [hplace, clock, pulse_startVsync, inPlace_startHsync, pulse_startHsync, pulse_nextChar, pulse_stepHsync,
    hends, pulseWidth_of_registers hcounted, pulseWidth_of_registers hstarted]
  cases s <;> rfl

end Parts

/-- A pulse that is counted stays so. It goes on by a unit or none, and when nothing is left of it, it
begins with all its width where its place is. -/
theorem counted_clock {c : Crtc} {s : Sync} (h : (c.pulse s).Counted) :
    (c.clock.pulse s).Counted ∧ (c.clock.pulse s).left.toNat =
      if (c.pulse s).left.toNat - (c.passes s).toNat = 0 ∧ c.clock.inPlace s = true
      then (c.pulseWidth s).toNat else (c.pulse s).left.toNat - (c.passes s).toNat := by
  rw [pulse_clock]
  cases c.passes s with
  | false => exact Pulse.start_counted h _ (c.pulseWidth_bounds s).1
  | true =>
    obtain ⟨hpassed, hleft⟩ := Pulse.pass_counted h
    obtain ⟨hstarted, hstart⟩ := Pulse.start_counted hpassed (c.clock.inPlace s) (c.pulseWidth_bounds s).1
    rw [hleft] at hstart
    exact ⟨hstarted, hstart⟩

theorem counted_clocks {c : Crtc} {s : Sync} (h : (c.pulse s).Counted) (n : Nat) :
    ((clock^[n] c).pulse s).Counted := by
  induction n with
  | zero => exact h
  | succ n ih =>
    rw [Function.iterate_succ_apply']
    exact (counted_clock ih).1

end Crtc

end AmstradCpc
