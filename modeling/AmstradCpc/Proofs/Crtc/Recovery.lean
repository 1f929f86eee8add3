/-
The counters of a controller that nobody writes to, wherever they stand. A register that is lowered may
leave its counter behind the count at which it wraps. It then goes on to 255 and comes round to zero, so
it gets to its last count in the end, and so does each of the counters that it carries into
(`next_last`). A line of 256 characters is the exception: its counter wraps, and carries into
none (`movesOn_iff`).
-/
import AmstradCpc.Proofs.Crtc.Clock

namespace AmstradCpc

namespace Crtc

/-! ## A counter and what carries into it -/

theorem toNat_sub_succ {last v : UInt8} (h : v ≠ last) : (last - (v + 1)).toNat + 1 = (last - v).toNat := by
  have hne : v.toNat ≠ last.toNat := fun heq => h (UInt8.toNat_inj.mp heq)
  have hv := v.toNat_lt
  have hlast := last.toNat_lt
  simp only [UInt8.toNat_sub, UInt8.toNat_add, UInt8.toNat_one]
  omega

section Digit

variable {carries : Nat → Bool} {counter : Nat → UInt8} {last : UInt8} {period : Nat}
  (hstep : ∀ n, counter (n + 1) = if carries n then following last (counter n) else counter n)
  (hcarries : ∀ m, ∃ n, m ≤ n ∧ n < m + period ∧ carries n = true)

include hstep

/-- Up to the next carry the counter stays. -/
theorem next_carry {k m : Nat} (h : carries (m + k) = true) :
    ∃ n, m ≤ n ∧ n ≤ m + k ∧ carries n = true ∧ counter n = counter m := by
  induction k generalizing m with
  | zero => exact ⟨m, Nat.le_refl m, Nat.le_refl m, h, rfl⟩
  | succ k ih =>
    by_cases hnow : carries m = true
    · exact ⟨m, Nat.le_refl m, Nat.le_add_right m _, hnow, rfl⟩
    · have hstays : counter (m + 1) = counter m := by rw [hstep, if_neg hnow]
      obtain ⟨n, hle, hlt, hn, hcounter⟩ := ih (m := m + 1) (by rwa [Nat.add_assoc, Nat.add_comm 1])
      exact ⟨n, by omega, by omega, hn, hcounter.trans hstays⟩

include hcarries

/-- A counter that is `d` counts from its last one carries there with one of the next `d + 1` carries. -/
theorem next_last_of_distance {d m : Nat} (hd : (last - counter m).toNat = d) :
    ∃ n, m ≤ n ∧ n < m + (d + 1) * period ∧ carries n = true ∧ counter n = last := by
  have hnext (m : Nat) : ∃ n, m ≤ n ∧ n < m + period ∧ carries n = true ∧ counter n = counter m := by
    obtain ⟨n, hle, hlt, hn⟩ := hcarries m
    obtain ⟨k, rfl⟩ := Nat.exists_eq_add_of_le hle
    obtain ⟨n, hmn, hnk, hfirst⟩ := next_carry hstep hn
    exact ⟨n, hmn, by omega, hfirst⟩
  induction d generalizing m with
  | zero =>
    have hthere : counter m = last := by
      by_contra hne
      have := toNat_sub_succ hne
      omega
    obtain ⟨n, hmn, hlt, hn, hcounter⟩ := hnext m
    exact ⟨n, hmn, by omega, hn, hcounter.trans hthere⟩
  | succ d ih =>
    have hne : counter m ≠ last := fun h => by
      rw [h, UInt8.sub_self] at hd
      exact absurd hd (Nat.succ_ne_zero d).symm
    obtain ⟨n, hmn, hlt, hn, hcounter⟩ := hnext m
    have hcounts : counter (n + 1) = counter m + 1 := by
      rw [hstep, if_pos hn, hcounter, following_of_ne hne]
    have hcloser : (last - counter (n + 1)).toNat = d := by
      have := toNat_sub_succ hne
      rw [hcounts]
      omega
    obtain ⟨k, hnk, hk, hlast⟩ := ih hcloser
    refine ⟨k, by omega, ?_, hlast⟩
    rw [Nat.succ_mul]
    omega

/-- If there is a carry in every `period` steps, the counter itself carries in every 256 of these. -/
theorem next_last (m : Nat) :
    ∃ n, m ≤ n ∧ n < m + 256 * period ∧ carries n = true ∧ counter n = last := by
  obtain ⟨n, hle, hlt, hn⟩ := next_last_of_distance hstep hcarries (m := m) rfl
  have hround : ((last - counter m).toNat + 1) * period ≤ 256 * period :=
    Nat.mul_le_mul_right period (last - counter m).toNat_lt
  exact ⟨n, hle, by omega, hn⟩

end Digit

/-! ## The three counters -/

/-- With the next clock the character counter wraps. -/
def Wraps (c : Crtc) : Prop := c.hCounter = c.horizontalTotal ∧ c.clock.hCounter = 0

instance (c : Crtc) : Decidable c.Wraps := inferInstanceAs (Decidable (_ ∧ _))

/-- None of the three counters stands still for good. -/
structure MovesOn (c : Crtc) : Prop where
  wraps : ∃ n < 512, (clock^[n] c).Wraps
  /-- The line goes on once whenever the character counter wraps, and never else. -/
  lines : ∀ n, (clock^[n + 1] c).scanline =
    if (clock^[n] c).Wraps then following c.maximumScanline (clock^[n] c).scanline else (clock^[n] c).scanline
  /-- The last line of the last row ends, and the first row follows. -/
  returns : ∃ n, (clock^[n] c).Wraps ∧ (clock^[n] c).scanline = c.maximumScanline ∧
    (clock^[n] c).vCounter = c.verticalTotal ∧ (clock^[n + 1] c).vCounter = 0

variable {c : Crtc}

theorem wraps_iff : c.Wraps ↔ c.hCounter = c.horizontalTotal := by
  refine ⟨And.left, fun h => ⟨h, ?_⟩⟩
  rw [hCounter_clock, h, following_self]

theorem clocks_wraps_iff {n : Nat} : (clock^[n] c).Wraps ↔ (clock^[n] c).hCounter = c.horizontalTotal := by
  rw [wraps_iff, horizontalTotal_clocks]

theorem clocks_endsRow_iff {n : Nat} :
    (clock^[n] c).endsRow = true ↔ (clock^[n] c).scanline = c.maximumScanline := by
  rw [endsRow_iff, maximumScanline_clocks]

theorem hCounter_clocks (c : Crtc) (n : Nat) :
    (clock^[n + 1] c).hCounter = following c.horizontalTotal (clock^[n] c).hCounter := by
  rw [Function.iterate_succ_apply', hCounter_clock, horizontalTotal_clocks]

theorem scanline_clocks (c : Crtc) (n : Nat) : (clock^[n + 1] c).scanline =
    if (clock^[n] c).endsLine then following c.maximumScanline (clock^[n] c).scanline
    else (clock^[n] c).scanline := by
  rw [Function.iterate_succ_apply', scanline_clock, maximumScanline_clocks]

theorem vCounter_clocks (c : Crtc) (n : Nat) : (clock^[n + 1] c).vCounter =
    if (clock^[n] c).endsLine && (clock^[n] c).endsRow then following c.verticalTotal (clock^[n] c).vCounter
    else (clock^[n] c).vCounter := by
  rw [Function.iterate_succ_apply', vCounter_clock, verticalTotal_clocks]

/-- The character counter wraps with any total. -/
theorem next_wraps (c : Crtc) (m : Nat) : ∃ n, m ≤ n ∧ n < m + 256 ∧ (clock^[n] c).Wraps := by
  let char (n : Nat) : UInt8 := (clock^[n] c).hCounter
  have hstep (n : Nat) : char (n + 1) = if true then following c.horizontalTotal (char n) else char n := by
    rw [if_pos rfl]
    exact hCounter_clocks c n
  have hcarries (m : Nat) : ∃ n, m ≤ n ∧ n < m + 1 ∧ true = true :=
    ⟨m, Nat.le_refl m, Nat.lt_succ_self m, rfl⟩
  obtain ⟨n, hle, hlt, -, hlast⟩ := @next_last (fun _ => true) char _ _ hstep hcarries m
  exact ⟨n, hle, hlt, clocks_wraps_iff.mpr hlast⟩

/-- While lines end, every line of a row comes to its end in its turn, and so does every row. -/
theorem next_return (hends : ∀ n, (clock^[n] c).Wraps → (clock^[n] c).endsLine = true) (m : Nat) :
    ∃ n, m ≤ n ∧ (clock^[n] c).endsLine = true ∧ (clock^[n] c).scanline = c.maximumScanline ∧
      (clock^[n] c).vCounter = c.verticalTotal := by
  let line (n : Nat) : UInt8 := (clock^[n] c).scanline
  let row (n : Nat) : UInt8 := (clock^[n] c).vCounter
  have hline (m : Nat) : ∃ n, m ≤ n ∧ n < m + 256 ∧ (clock^[n] c).endsLine = true := by
    obtain ⟨n, hle, hlt, hn⟩ := next_wraps c m
    exact ⟨n, hle, hlt, hends n hn⟩
  have hrow (m : Nat) : ∃ n, m ≤ n ∧ n < m + 256 * 256 ∧
      ((clock^[n] c).endsLine && (clock^[n] c).endsRow) = true := by
    obtain ⟨n, hle, hlt, hn, hlast⟩ := @next_last _ line _ _ (scanline_clocks c) hline m
    have hend : (clock^[n] c).endsRow = true := clocks_endsRow_iff.mpr hlast
    exact ⟨n, hle, hlt, Bool.and_eq_true_iff.mpr ⟨hn, hend⟩⟩
  obtain ⟨n, hle, -, hn, hlast⟩ := @next_last _ row _ _ (vCounter_clocks c) hrow m
  obtain ⟨hend, hrowEnd⟩ := Bool.and_eq_true_iff.mp hn
  exact ⟨n, hle, hend, clocks_endsRow_iff.mp hrowEnd, hlast⟩

theorem movesOn_of_total_le (htotal : c.horizontalTotal ≤ 254) : c.MovesOn := by
  have hends (n : Nat) : (clock^[n] c).endsLine = true ↔ (clock^[n] c).Wraps := by
    have htotal' : (clock^[n] c).horizontalTotal ≤ 254 := by rwa [horizontalTotal_clocks]
    rw [endsLine_iff htotal', wraps_iff]
  constructor
  case wraps =>
    obtain ⟨n, -, hlt, hn⟩ := next_wraps c 0
    exact ⟨n, by omega, hn⟩
  case lines =>
    intro n
    simp only [scanline_clocks, hends]
  case returns =>
    obtain ⟨n, -, hline, hscanline, hrow⟩ := next_return (fun n => (hends n).mpr) 0
    have hlast : (clock^[n] c).endsRow = true := clocks_endsRow_iff.mpr hscanline
    refine ⟨n, (hends n).mp hline, hscanline, hrow, ?_⟩
    rw [vCounter_clocks, if_pos (Bool.and_eq_true_iff.mpr ⟨hline, hlast⟩), hrow, following_self]

/-! ## Lines that never end -/

/-- A line of 256 characters. -/
theorem stays_of_total_eq (htotal : c.horizontalTotal = 255) (n : Nat) :
    (clock^[n] c).scanline = c.scanline ∧ (clock^[n] c).vCounter = c.vCounter := by
  induction n with
  | zero => exact ⟨rfl, rfl⟩
  | succ n ih =>
    have hends : (clock^[n] c).endsLine = false :=
      endsLine_of_total_eq (by rwa [horizontalTotal_clocks])
    rw [scanline_clocks, vCounter_clocks, hends]
    exact ih

theorem not_movesOn_of_total_eq (htotal : c.horizontalTotal = 255)
    (hline : following c.maximumScanline c.scanline ≠ c.scanline) : ¬c.MovesOn := by
  intro h
  obtain ⟨n, -, -, hn⟩ := next_wraps c 0
  have hnext := h.lines n
  rw [if_pos hn, (stays_of_total_eq htotal n).1, (stays_of_total_eq htotal (n + 1)).1] at hnext
  exact hline hnext.symm

/-- **What keeps the counters going.** With any registers but an R0 of 255, and whatever its counters are,
a controller that nobody writes to has its character counter wrap at R0 within 512 clocks, goes on by
one line whenever that happens and at no other time, and gets back to the first row. With an R0 of
255 there are states in which it does not, and in all of them its line and row stay as they are. -/
theorem movesOn_iff (registers : Vector UInt8 18) :
    ((∀ c : Crtc, c.registers = registers → c.MovesOn) ↔ registers.get 0 ≠ 255) ∧
    (registers.get 0 = 255 → ∀ c : Crtc, c.registers = registers → ∀ n,
      (clock^[n] c).scanline = c.scanline ∧ (clock^[n] c).vCounter = c.vCounter) := by
  refine ⟨⟨fun h htotal => ?_, fun htotal c hregisters => ?_⟩, fun htotal c hregisters n => ?_⟩
  · -- A line behind the last one has another one after it.
    let c : Crtc := { registers, scanline := registers[9] + 1 }
    have hsucc (v : UInt8) : v + 1 ≠ v := by simp
    have hline : following c.maximumScanline c.scanline ≠ c.scanline := by
      have hbehind : c.scanline ≠ c.maximumScanline := hsucc registers[9]
      rw [following_of_ne hbehind]
      exact hsucc c.scanline
    have htotal' : c.horizontalTotal = 255 := htotal
    exact not_movesOn_of_total_eq htotal' hline (h c rfl)
  · have htop := (registers.get 0).toNat_lt
    have hne : (registers.get 0).toNat ≠ 255 := fun h => htotal (UInt8.toNat_inj.mp h)
    refine movesOn_of_total_le ?_
    rw [horizontalTotal, hregisters, UInt8.le_iff_toNat_le]
    exact Nat.le_of_lt_succ (Nat.lt_of_le_of_ne (Nat.le_of_lt_succ htop) hne)
  · subst hregisters
    exact stays_of_total_eq htotal n

/-- Every counter is behind its last count. -/
theorem movesOn_behind : initialRegisters.get 0 ≠ 255 ∧
    ({ registers := initialRegisters, hCounter := 200, scanline := 20, vCounter := 255 } : Crtc).MovesOn := by
  have htotal : initialRegisters.get 0 ≠ 255 := by decide
  exact ⟨htotal, (movesOn_iff initialRegisters).1.mpr htotal _ rfl⟩

/-- A new controller of which R0 is set to 255. -/
theorem not_movesOn_poke : let c := ({} : Crtc).poke 0 255
    ¬c.MovesOn ∧ ∀ n, (clock^[n] c).scanline = 0 ∧ (clock^[n] c).vCounter = 0 := by
  intro c
  have htotal : c.horizontalTotal = 255 := by decide
  exact ⟨not_movesOn_of_total_eq htotal (by decide), stays_of_total_eq htotal⟩

end Crtc

end AmstradCpc
