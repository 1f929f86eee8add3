/-
The timing of the display controller while nobody writes to it. Each of its three counters goes on
when the one before it wraps, so they are the digits of the number of clocks (`Counts.clock`). A
sync pulse is counted down from its width (`countdown_pos_iff`), so it is up as long ago as it
began less than its width (`steady_timing`).
-/
import Mathlib.Data.Nat.ModEq
import AmstradCpc.Proofs.Crtc.Clock

namespace AmstradCpc

namespace Crtc

/-! ## The counters -/

/-- The counters stand where `n` clocks from zero bring them. -/
structure Counts (c : Crtc) (n : Nat) : Prop where
  char : c.hCounter.toNat = n % (c.horizontalTotal.toNat + 1)
  line : c.scanline.toNat = n / (c.horizontalTotal.toNat + 1) % (c.maximumScanline.toNat + 1)
  row : c.vCounter.toNat =
    n / (c.horizontalTotal.toNat + 1) / (c.maximumScanline.toNat + 1) % (c.verticalTotal.toNat + 1)

theorem le_of_toNat_eq_mod {v last : UInt8} {n : Nat} (h : v.toNat = n % (last.toNat + 1)) : v ≤ last := by
  rw [UInt8.le_iff_toNat_le, h]
  exact Nat.le_of_lt_succ (Nat.mod_lt _ (Nat.succ_pos _))

namespace Counts

variable {c : Crtc} {n : Nat}

theorem endsLine_iff (h : c.Counts n) (htotal : c.horizontalTotal ≤ 254) :
    c.endsLine = true ↔ c.horizontalTotal.toNat + 1 ∣ n + 1 := by
  rw [Crtc.endsLine_iff htotal, Nat.dvd_iff_mod_eq_zero, Nat.succ_mod_succ_eq_zero_iff, ← h.char,
    UInt8.toNat_inj]

theorem endsRow_iff (h : c.Counts n) : c.endsRow = true ↔
    c.maximumScanline.toNat + 1 ∣ n / (c.horizontalTotal.toNat + 1) + 1 := by
  rw [Nat.dvd_iff_mod_eq_zero, Nat.succ_mod_succ_eq_zero_iff, ← h.line, Crtc.endsRow_iff,
    UInt8.toNat_inj]

/-- A clock takes the three counters to the next number. -/
theorem clock (h : c.Counts n) (htotal : c.horizontalTotal ≤ 254) : c.clock.Counts (n + 1) := by
  have hlines : (n + 1) / (c.horizontalTotal.toNat + 1) =
      n / (c.horizontalTotal.toNat + 1) + if c.endsLine then 1 else 0 := by
    simp only [Nat.succ_div, h.endsLine_iff htotal]
  have hrows : (n / (c.horizontalTotal.toNat + 1) + 1) / (c.maximumScanline.toNat + 1) =
      n / (c.horizontalTotal.toNat + 1) / (c.maximumScanline.toNat + 1) + if c.endsRow then 1 else 0 := by
    simp only [Nat.succ_div, h.endsRow_iff]
  have hregisters := c.registers_clock
  constructor
  case char =>
    rw [horizontalTotal, hregisters, ← horizontalTotal, hCounter_clock,
      toNat_following (le_of_toNat_eq_mod h.char), h.char, Nat.mod_add_mod]
  case line =>
    rw [horizontalTotal, maximumScanline, hregisters, ← horizontalTotal, ← maximumScanline, hlines,
      scanline_clock]
    split
    · rw [toNat_following (le_of_toNat_eq_mod h.line), h.line, Nat.mod_add_mod]
    · exact h.line
  case row =>
    rw [horizontalTotal, maximumScanline, verticalTotal, hregisters, ← horizontalTotal, ← maximumScanline,
      ← verticalTotal, hlines, vCounter_clock]
    cases c.endsLine with
    | false => exact h.row
    | true =>
      simp only [Bool.true_and, if_true, hrows]
      split
      · rw [toNat_following (le_of_toNat_eq_mod h.row), h.row, Nat.mod_add_mod]
      · exact h.row

theorem clocks (h : c.Counts 0) (htotal : c.horizontalTotal ≤ 254) (n : Nat) :
    (Crtc.clock^[n] c).Counts n := by
  induction n with
  | zero => exact h
  | succ n ih =>
    rw [Function.iterate_succ_apply']
    exact ih.clock (by rwa [horizontalTotal, registers_clocks])

end Counts

/-! ## The horizontal sync -/

section Countdown

variable {width : Nat} {left : Nat → Nat} {Begins : Nat → Prop} [DecidablePred Begins]

/-- A pulse that is counted down began at some `s`, and no other one has begun since. -/
theorem countdown_cases (hwidth : 0 < width) (hzero : left 0 = 0)
    (hstep : ∀ n, left (n + 1) = if left n - 1 = 0 ∧ Begins (n + 1) then width else left n - 1)
    (hapart : ∀ {s t}, Begins s → Begins t → s < t → s + width ≤ t) (n : Nat) :
    (∃ s, 1 ≤ s ∧ s ≤ n ∧ n < s + width ∧ Begins s ∧ left n = s + width - n) ∨
      (left n = 0 ∧ ∀ s, 1 ≤ s → s ≤ n → n < s + width → ¬Begins s) := by
  induction n with
  | zero => exact .inr ⟨hzero, fun s _ _ => by omega⟩
  | succ n ih =>
    have hnext := hstep n
    by_cases hbegins : left n - 1 = 0 ∧ Begins (n + 1)
    · rw [if_pos hbegins] at hnext
      exact .inl ⟨n + 1, by omega, Nat.le_refl _, by omega, hbegins.2, by omega⟩
    rw [if_neg hbegins] at hnext
    rcases ih with ⟨s, hs, hle, hlt, hat, hleft⟩ | ⟨hnone, hall⟩
    · by_cases hmore : n + 1 < s + width
      · exact .inl ⟨s, hs, by omega, hmore, hat, by omega⟩
      · -- The pulse has just ended; one that had begun after it would still overlap it.
        refine .inr ⟨by omega, fun t ht htle htlt htat => ?_⟩
        obtain rfl | hlater : t = n + 1 ∨ t ≤ n := by omega
        · exact hbegins ⟨by omega, htat⟩
        · have := hapart hat htat (by omega)
          omega
    · refine .inr ⟨by omega, fun t ht htle htlt htat => ?_⟩
      obtain rfl | hlater : t = n + 1 ∨ t ≤ n := by omega
      · exact hbegins ⟨by omega, htat⟩
      · exact hall t ht hlater (by omega) htat

/-- A pulse is counted down to zero, and may begin again at once. If the places where it can
begin are at least its width apart, it is up less than its width after it has begun. -/
theorem countdown_pos_iff (hwidth : 0 < width) (hzero : left 0 = 0)
    (hstep : ∀ n, left (n + 1) = if left n - 1 = 0 ∧ Begins (n + 1) then width else left n - 1)
    (hapart : ∀ {s t}, Begins s → Begins t → s < t → s + width ≤ t) (n : Nat) :
    0 < left n ↔ ∃ s, 1 ≤ s ∧ s ≤ n ∧ n < s + width ∧ Begins s := by
  rcases countdown_cases hwidth hzero hstep hapart n with ⟨s, hs, hle, hlt, hat, hleft⟩ | ⟨hnone, hall⟩
  · exact ⟨fun _ => ⟨s, hs, hle, hlt, hat⟩, fun _ => by omega⟩
  · refine ⟨fun hpos => by omega, ?_⟩
    rintro ⟨s, hs, hle, hlt, hat⟩
    exact absurd hat (hall s hs hle hlt)

end Countdown

/-- Two clocks at one character of a line are a line apart. -/
theorem add_le_of_mod_eq {s t k : Nat} (h : s % k = t % k) (hlt : s < t) : s + k ≤ t := by
  have hdvd : k ∣ t - s := (Nat.modEq_iff_dvd' hlt.le).mp h
  have := Nat.le_of_dvd (by omega) hdvd
  omega

/-- **The timing of a controller that nobody writes to**, from counters at zero and with any
registers, R0 being at most 254. After `n` clocks it is in character `n % (R0 + 1)` of line
`n / (R0 + 1)`, and lines and rows follow from that in the same way. If the horizontal sync, whose
width is the low nibble of R3 or 16, is no longer than a line, it is up exactly if one of the last
so many clocks has come to character R2. -/
theorem steady_timing (registers : Vector UInt8 18) (address : UInt8) :
    let c : Crtc := { registers, address }
    let r (i : Fin 18) : Nat := (registers.get i).toNat
    let lines (n : Nat) : Nat := n / (r 0 + 1)
    let w := if r 3 % 16 = 0 then 16 else r 3 % 16
    r 0 ≤ 254 → ∀ n,
      (clock^[n] c).registers = registers ∧
      (clock^[n] c).hCounter.toNat = n % (r 0 + 1) ∧
      (clock^[n] c).scanline.toNat = lines n % (r 9 + 1) ∧
      (clock^[n] c).vCounter.toNat = lines n / (r 9 + 1) % (r 4 + 1) ∧
      (w ≤ r 0 + 1 → ((clock^[n] c).hsync = true ↔
        ∃ s, 1 ≤ s ∧ s ≤ n ∧ n < s + w ∧ (clock^[s] c).hCounter.toNat = r 2)) := by
  intro c r lines w htotal n
  have htop : c.horizontalTotal ≤ 254 := UInt8.le_iff_toNat_le.mpr htotal
  have hzero : c.Counts 0 := ⟨(Nat.zero_mod _).symm, by simp [c], by simp [c]⟩
  have hregisters (n : Nat) : (clock^[n] c).registers = registers := c.registers_clocks n
  have hchar (n : Nat) : (clock^[n] c).hCounter.toNat = n % (r 0 + 1) := by
    have h := (hzero.clocks htop n).char
    rwa [horizontalTotal, hregisters] at h
  have hline : (clock^[n] c).scanline.toNat = lines n % (r 9 + 1) := by
    have h := (hzero.clocks htop n).line
    rwa [horizontalTotal, maximumScanline, hregisters] at h
  have hrow : (clock^[n] c).vCounter.toNat = lines n / (r 9 + 1) % (r 4 + 1) := by
    have h := (hzero.clocks htop n).row
    rwa [horizontalTotal, maximumScanline, verticalTotal, hregisters] at h
  refine ⟨hregisters n, hchar n, hline, hrow, fun hw => ?_⟩
  let left (n : Nat) : Nat := ((clock^[n] c).pulse .horizontal).left.toNat
  let Begins (n : Nat) : Prop := (clock^[n] c).hCounter.toNat = r 2
  have hcounted (n : Nat) : ((clock^[n] c).pulse .horizontal).Counted :=
    counted_clocks (by simp [Pulse.Counted, pulse, c]) n
  have hwidth (n : Nat) : ((clock^[n] c).pulseWidth .horizontal).toNat = w := by
    rw [pulseWidth_of_registers (c.registers_clocks n)]
    exact c.toNat_pulseWidth .horizontal
  have hplace (n : Nat) : (clock^[n] c).inPlace .horizontal = true ↔ Begins n := by
    rw [inPlace, beq_iff_eq, ← UInt8.toNat_inj, horizontalSyncPosition, hregisters]
    rfl
  have hstep (n : Nat) : left (n + 1) = if left n - 1 = 0 ∧ Begins (n + 1) then w else left n - 1 := by
    have h := (counted_clock (hcounted n)).2
    simp only [← Function.iterate_succ_apply' clock n c, hplace, hwidth] at h
    exact h
  have hapart {s t : Nat} (hs : Begins s) (ht : Begins t) (hlt : s < t) : s + w ≤ t := by
    have hmod : s % (r 0 + 1) = t % (r 0 + 1) := by rw [← hchar, ← hchar, hs, ht]
    exact (Nat.add_le_add_left hw s).trans (add_le_of_mod_eq hmod hlt)
  have hpos : 0 < w := hwidth 0 ▸ (c.pulseWidth_bounds .horizontal).1
  have hup : 0 < left n ↔ ∃ s, 1 ≤ s ∧ s ≤ n ∧ n < s + w ∧ Begins s :=
    countdown_pos_iff hpos rfl hstep hapart n
  exact (hcounted n).trans hup

/-- The longest line there is a total for, and rows and lines that fill their counters. The sync
begins with the last character of a line. -/
def longLines : Vector UInt8 18 := #v[254, 0, 254, 0x0F, 255, 0, 0, 0, 0, 255, 0, 0, 0, 0, 0, 0, 0, 0]

/-- The last character of the picture. -/
theorem steady_timing_longLines :
    let c : Crtc := { registers := longLines }
    (longLines.get 0).toNat ≤ 254 ∧
    ((longLines.get 3).toNat % 16 ≠ 0 ∧ (longLines.get 3).toNat % 16 ≤ (longLines.get 0).toNat + 1) ∧
    (clock^[255 * 256 * 256 - 1] c).hCounter.toNat = 254 ∧
    (clock^[255 * 256 * 256 - 1] c).scanline.toNat = 255 ∧
    (clock^[255 * 256 * 256 - 1] c).vCounter.toNat = 255 ∧
    (clock^[255 * 256 * 256 - 1] c).hsync = true := by
  obtain ⟨-, hchar, hline, hrow, hsync⟩ :=
    steady_timing longLines 0 (by decide) (255 * 256 * 256 - 1)
  exact ⟨by decide, by decide, hchar, hline, hrow,
    (hsync (by decide)).mpr ⟨255 * 256 * 256 - 1, by decide, by decide, by decide, hchar⟩⟩

end Crtc

end AmstradCpc
