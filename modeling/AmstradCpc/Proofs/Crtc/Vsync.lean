/-
The vertical sync of a controller that nobody writes to. The pulse looks at the row of characters alone:
if it ends while its row lasts, it begins again in the same clock, and nothing is reported. So it
goes on in whole pulses until one of them ends behind the row. `Schedule.left_succ` says this of the
lines of a picture, and `vsync_pulses` when the edges are reported.
-/
import AmstradCpc.Proofs.Crtc.Reports
import AmstradCpc.Proofs.Crtc.Timing

namespace AmstradCpc

namespace Crtc

theorem succ_mod_eq_ite (n k : Nat) (hk : 0 < k) :
    (n + 1) % k = if n % k + 1 = k then 0 else n % k + 1 := by
  have hlt := Nat.mod_lt n hk
  rw [← Nat.mod_add_mod]
  split
  next hlast => rw [hlast, Nat.mod_self]
  next hmore => exact Nat.mod_eq_of_lt (by omega)

/-- What happens between two lines happens in the clock that ends the first of them. -/
theorem between_lines_iff {R : Nat → Nat → Prop} (hirrefl : ∀ line, ¬R line line) {k : Nat} (hk : 0 < k)
    (n : Nat) : R (n / k) ((n + 1) / k) ↔ ∃ line, R line (line + 1) ∧ n + 1 = (line + 1) * k := by
  constructor
  · intro h
    rw [Nat.succ_div] at h
    split at h
    next hdvd =>
      refine ⟨n / k, h, ?_⟩
      rw [← Nat.succ_div_of_dvd hdvd, Nat.div_mul_cancel hdvd]
    next => exact absurd h (hirrefl _)
  · rintro ⟨line, h, hn⟩
    have hnext : (n + 1) / k = line + 1 := by rw [hn, Nat.mul_div_cancel _ hk]
    have hline : n / k = line := by
      rw [Nat.succ_div_of_dvd (Dvd.intro_left _ hn.symm)] at hnext
      omega
    rwa [hnext, hline]

/-! ## Lines of a picture -/

/-- A picture, measured in lines: the row in which the pulse begins, how often it comes, and the pulses
of a given width that are put together until the row is over. -/
structure Schedule where
  width : Nat
  /-- The lines of the row. -/
  height : Nat
  /-- The lines from the beginning of the pulse to its end. -/
  length : Nat
  /-- The line in which the first pulse begins. -/
  first : Nat
  /-- The lines from one pulse to the next. -/
  frame : Nat
  width_pos : 0 < width
  height_pos : 0 < height
  whole : width ∣ length
  height_le : height ≤ length
  length_lt : length < height + width
  fits : length < frame

namespace Schedule

variable (s : Schedule)

/-- The lines since the row began, or would have begun. -/
def position (line : Nat) : Nat := (line - s.first) % s.frame

/-- The row is on. -/
def InRow (line : Nat) : Prop := s.first ≤ line ∧ s.position line < s.height

/-- The sync is up. -/
def Up (line : Nat) : Prop := s.first ≤ line ∧ s.position line < s.length

instance (line : Nat) : Decidable (s.InRow line) := inferInstanceAs (Decidable (_ ∧ _))

instance (line : Nat) : Decidable (s.Up line) := inferInstanceAs (Decidable (_ ∧ _))

/-- What is left of the pulse that is counted down in a line. -/
def left (line : Nat) : Nat := if s.Up line then s.width - s.position line % s.width else 0

variable {s} {line : Nat}

theorem frame_pos (s : Schedule) : 0 < s.frame := Nat.zero_lt_of_lt s.fits

theorem length_pos (s : Schedule) : 0 < s.length := s.height_pos.trans_le s.height_le

theorem position_first (s : Schedule) : s.position s.first = 0 := by
  rw [position, Nat.sub_self, Nat.zero_mod]

theorem position_succ (h : s.first ≤ line) :
    s.position (line + 1) = s.position line + 1 ∨
      s.position line + 1 = s.frame ∧ s.position (line + 1) = 0 := by
  have hnext : s.position (line + 1) = if s.position line + 1 = s.frame then 0 else s.position line + 1 := by
    rw [position, Nat.sub_add_comm h, succ_mod_eq_ite _ _ s.frame_pos]
    rfl
  split at hnext
  next hlast => exact .inr ⟨hlast, hnext⟩
  next => exact .inl hnext

theorem position_eq_iff {p : Nat} (hp : p < s.frame) :
    s.first ≤ line ∧ s.position line = p ↔ ∃ k, line = k * s.frame + s.first + p := by
  constructor
  · rintro ⟨hfirst, rfl⟩
    have hdiv := Nat.div_add_mod' (line - s.first) s.frame
    refine ⟨(line - s.first) / s.frame, ?_⟩
    rw [position]
    omega
  · rintro ⟨k, rfl⟩
    have hsince : k * s.frame + s.first + p - s.first = p + k * s.frame := by omega
    refine ⟨by omega, ?_⟩
    rw [position, hsince, Nat.add_mul_mod_self_right, Nat.mod_eq_of_lt hp]

/-- The sync goes up where the row begins. -/
theorem rises_iff :
    ¬s.Up line ∧ s.Up (line + 1) ↔ s.first ≤ line + 1 ∧ s.position (line + 1) = 0 := by
  have hfits := s.fits
  constructor
  · rintro ⟨hdown, hfirst, hup⟩
    refine ⟨hfirst, ?_⟩
    obtain hbegins | hbegun : s.first = line + 1 ∨ s.first ≤ line := by omega
    · rw [← hbegins, position_first]
    · have hbehind : ¬s.position line < s.length := fun h => hdown ⟨hbegun, h⟩
      have hnext := position_succ hbegun
      omega
  · rintro ⟨hfirst, hzero⟩
    refine ⟨fun hup => ?_, hfirst, by rw [hzero]; exact s.length_pos⟩
    have hlt := hup.2
    have hnext := position_succ hup.1
    omega

/-- The sync goes down where the length of it is over. -/
theorem falls_iff :
    s.Up line ∧ ¬s.Up (line + 1) ↔ s.first ≤ line + 1 ∧ s.position (line + 1) = s.length := by
  have hfits := s.fits
  have hpos := s.length_pos
  constructor
  · rintro ⟨⟨hbegun, hup⟩, hdown⟩
    have hover : ¬s.position (line + 1) < s.length := fun h => hdown ⟨by omega, h⟩
    have hnext := position_succ hbegun
    exact ⟨by omega, by omega⟩
  · rintro ⟨hfirst, hlength⟩
    refine ⟨?_, fun hup => ?_⟩
    · obtain hbegins | hbegun : s.first = line + 1 ∨ s.first ≤ line := by omega
      · rw [← hbegins, position_first] at hlength
        omega
      · have hnext := position_succ hbegun
        exact ⟨hbegun, by omega⟩
    · have := hup.2
      omega

theorem InRow.up (h : s.InRow line) : s.Up line := ⟨h.1, h.2.trans_le s.height_le⟩

theorem left_of_not_up (h : ¬s.Up line) : s.left line = 0 := if_neg h

theorem left_pos_iff : 0 < s.left line ↔ s.Up line := by
  have hpart : s.position line % s.width < s.width := Nat.mod_lt _ s.width_pos
  unfold left
  split
  next hup => exact iff_of_true (by omega) hup
  next hdown => exact iff_of_false (Nat.lt_irrefl 0) hdown

/-- A pulse that runs out behind the row is the last one. -/
theorem length_eq_of_runs_out {q : Nat} (hup : q < s.length) (hout : (q + 1) % s.width = 0)
    (hrow : s.height ≤ q + 1) : s.length = q + 1 := by
  have hdvd : s.width ∣ s.length - (q + 1) := Nat.dvd_sub s.whole (Nat.dvd_of_mod_eq_zero hout)
  have hlt := s.length_lt
  have hzero : s.length - (q + 1) = 0 := Nat.eq_zero_of_dvd_of_lt hdvd (by omega)
  omega

theorem left_succ_of_up (h : s.Up line) : s.left (line + 1) =
    if s.left line - 1 = 0 ∧ s.InRow (line + 1) then s.width else s.left line - 1 := by
  obtain ⟨hbegun, hup⟩ := h
  have hfits := s.fits
  have hbegun' : s.first ≤ line + 1 := by omega
  have hnext : s.position (line + 1) = s.position line + 1 := by
    have := position_succ hbegun
    omega
  have hleft : s.left line = s.width - s.position line % s.width := if_pos ⟨hbegun, hup⟩
  have hpart := Nat.mod_lt (s.position line) s.width_pos
  have hmod := succ_mod_eq_ite (s.position line) s.width s.width_pos
  by_cases hout : s.position line % s.width + 1 = s.width
  · -- The pulse runs out. Whether it begins again decides whether the sync stays up.
    rw [if_pos hout] at hmod
    by_cases hrow : s.InRow (line + 1)
    · have hagain : s.left (line + 1) = s.width := by
        rw [left, if_pos hrow.up, hnext, hmod, Nat.sub_zero]
      rw [if_pos ⟨by omega, hrow⟩, hagain]
    · have hbehind : s.height ≤ s.position line + 1 := by
        rw [← hnext]
        exact Nat.le_of_not_lt fun h => hrow ⟨hbegun', h⟩
      have hends : s.length = s.position line + 1 := length_eq_of_runs_out hup hmod hbehind
      have hdown : ¬s.Up (line + 1) := (falls_iff.mpr ⟨hbegun', hnext.trans hends.symm⟩).2
      rw [left_of_not_up hdown, if_neg fun h => hrow h.2]
      omega
  · rw [if_neg hout] at hmod
    have hmore : s.position line + 1 < s.length := by
      refine Nat.lt_of_le_of_ne hup fun hends => ?_
      have hzero := Nat.mod_eq_zero_of_dvd s.whole
      rw [← hends, hmod] at hzero
      omega
    have hstays : s.Up (line + 1) := ⟨hbegun', by rwa [hnext]⟩
    rw [if_neg (fun h => by omega), left, if_pos hstays, hnext, hmod]
    omega

/-- From one line to the next a unit of the pulse goes by. When it has run out and the row is
on, it begins again. -/
theorem left_succ (s : Schedule) (line : Nat) : s.left (line + 1) =
    if s.left line - 1 = 0 ∧ s.InRow (line + 1) then s.width else s.left line - 1 := by
  by_cases hup : s.Up line
  · exact left_succ_of_up hup
  rw [left_of_not_up hup]
  by_cases hrises : s.Up (line + 1)
  · obtain ⟨hbegun, hzero⟩ := rises_iff.mp ⟨hup, hrises⟩
    have hrow : s.InRow (line + 1) := ⟨hbegun, by rw [hzero]; exact s.height_pos⟩
    rw [if_pos ⟨rfl, hrow⟩, left, if_pos hrises, hzero, Nat.zero_mod, Nat.sub_zero]
  · rw [left_of_not_up hrises, if_neg fun h => hrises h.2.up]

/-- Within a line nothing goes by. A row that is on has its sync up. -/
theorem left_stays (s : Schedule) (line : Nat) :
    s.left line = if s.left line = 0 ∧ s.InRow line then s.width else s.left line := by
  have hrow : ¬(s.left line = 0 ∧ s.InRow line) := fun ⟨hzero, hrow⟩ => by
    have := left_pos_iff.mpr hrow.up
    omega
  rw [if_neg hrow]

/-- The clocks that end a line before one with a given position. -/
theorem exists_line_iff {p k m : Nat} (hp : p < s.frame) (hfirst : 0 < s.first) :
    (∃ line, (s.first ≤ line + 1 ∧ s.position (line + 1) = p) ∧ m = (line + 1) * k) ↔
      ∃ frame, m = (frame * s.frame + s.first + p) * k := by
  simp only [position_eq_iff hp]
  constructor
  · rintro ⟨line, ⟨frame, hline⟩, rfl⟩
    exact ⟨frame, by rw [hline]⟩
  · rintro ⟨frame, rfl⟩
    have hline : frame * s.frame + s.first + p - 1 + 1 = frame * s.frame + s.first + p := by omega
    exact ⟨frame * s.frame + s.first + p - 1, ⟨frame, hline⟩, by rw [hline]⟩

theorem rises_between_iff {k : Nat} (hk : 0 < k) (hfirst : 0 < s.first) (n : Nat) :
    ¬s.Up (n / k) ∧ s.Up ((n + 1) / k) ↔ ∃ frame, n + 1 = (frame * s.frame + s.first) * k := by
  have hends := between_lines_iff (R := fun line next => ¬s.Up line ∧ s.Up next) (fun _ h => h.1 h.2) hk n
  simp only [rises_iff] at hends
  exact hends.trans (exists_line_iff s.frame_pos hfirst)

theorem falls_between_iff {k : Nat} (hk : 0 < k) (hfirst : 0 < s.first) (n : Nat) :
    s.Up (n / k) ∧ ¬s.Up ((n + 1) / k) ↔ ∃ frame, n + 1 = (frame * s.frame + s.first + s.length) * k := by
  have hends := between_lines_iff (R := fun line next => s.Up line ∧ ¬s.Up next) (fun _ h => h.2 h.1) hk n
  simp only [falls_iff] at hends
  exact hends.trans (exists_line_iff s.fits hfirst)

theorem inRow_iff {row rows : Nat} (hrow : row < rows) (hfirst : s.first = row * s.height)
    (hframe : s.frame = rows * s.height) : s.InRow line ↔ line / s.height % rows = row := by
  have hpos := s.height_pos
  have hbegun : s.first ≤ line ↔ row ≤ line / s.height := by rw [hfirst, Nat.le_div_iff_mul_le hpos]
  have hposition : s.position line < s.height ↔ (line / s.height - row) % rows = 0 := by
    rw [position, hfirst, hframe, Nat.mul_comm rows, ← Nat.div_eq_zero_iff_lt hpos, Nat.mod_mul_right_div_self,
      Nat.mul_comm row, Nat.sub_mul_div]
  rw [InRow, hbegun, hposition]
  constructor
  · rintro ⟨hle, hzero⟩
    rw [← Nat.add_sub_of_le hle, Nat.add_mod, hzero, Nat.add_zero, Nat.mod_mod, Nat.mod_eq_of_lt hrow]
  · intro hmod
    refine ⟨hmod ▸ Nat.mod_le _ _, ?_⟩
    exact Nat.sub_mod_eq_zero_of_mod_eq (hmod.trans (Nat.mod_eq_of_lt hrow).symm)

end Schedule

/-! ## The pulses of a controller -/

variable {c : Crtc} {n : Nat}

/-- The lines of as many pulses as it takes to get behind a row. -/
def pulsesLength (width height : Nat) : Nat := width * ((height + width - 1) / width)

/-- The vertical sync by the registers, if it is over before the next one. -/
def schedule (c : Crtc)
    (hfits : pulsesLength (c.pulseWidth .vertical).toNat (c.maximumScanline.toNat + 1) <
      (c.verticalTotal.toNat + 1) * (c.maximumScanline.toNat + 1)) : Schedule where
  width := (c.pulseWidth .vertical).toNat
  height := c.maximumScanline.toNat + 1
  length := pulsesLength (c.pulseWidth .vertical).toNat (c.maximumScanline.toNat + 1)
  first := c.verticalSyncPosition.toNat * (c.maximumScanline.toNat + 1)
  frame := (c.verticalTotal.toNat + 1) * (c.maximumScanline.toNat + 1)
  width_pos := (c.pulseWidth_bounds .vertical).1
  height_pos := Nat.succ_pos _
  whole := Nat.dvd_mul_right _ _
  height_le := by
    have hpos := (c.pulseWidth_bounds .vertical).1
    have hlt := Nat.lt_mul_div_succ (c.maximumScanline.toNat + 1 + (c.pulseWidth .vertical).toNat - 1) hpos
    rw [Nat.mul_succ] at hlt
    unfold pulsesLength
    omega
  length_lt := by
    have hpos := (c.pulseWidth_bounds .vertical).1
    have hle := Nat.mul_div_le (c.maximumScanline.toNat + 1 + (c.pulseWidth .vertical).toNat - 1)
      (c.pulseWidth .vertical).toNat
    unfold pulsesLength
    omega
  fits := hfits

theorem Counts.digits (h : c.Counts 0) (htotal : c.horizontalTotal ≤ 254) (n : Nat) :
    (Crtc.clock^[n] c).hCounter.toNat = n % (c.horizontalTotal.toNat + 1) ∧
    (Crtc.clock^[n] c).scanline.toNat = n / (c.horizontalTotal.toNat + 1) % (c.maximumScanline.toNat + 1) ∧
    (Crtc.clock^[n] c).vCounter.toNat =
      n / (c.horizontalTotal.toNat + 1) / (c.maximumScanline.toNat + 1) % (c.verticalTotal.toNat + 1) := by
  obtain ⟨hchar, hline, hrow⟩ := h.clocks htotal n
  rw [horizontalTotal_clocks] at hchar hline hrow
  rw [maximumScanline_clocks] at hline hrow
  rw [verticalTotal_clocks] at hrow
  exact ⟨hchar, hline, hrow⟩

section Clocks

variable (hcounts : c.Counts 0) (htotal : c.horizontalTotal ≤ 254)
  (hrow : c.verticalSyncPosition ≤ c.verticalTotal)
  (hfits : pulsesLength (c.pulseWidth .vertical).toNat (c.maximumScanline.toNat + 1) <
    (c.verticalTotal.toNat + 1) * (c.maximumScanline.toNat + 1))

include hcounts htotal hrow in
theorem inPlace_clocks (n : Nat) : (clock^[n] c).inPlace .vertical = true ↔
    (c.schedule hfits).InRow (n / (c.horizontalTotal.toNat + 1)) := by
  rw [Schedule.inRow_iff (Nat.lt_succ_of_le (UInt8.le_iff_toNat_le.mp hrow)) rfl rfl, inPlace,
    beq_iff_eq, verticalSyncPosition_clocks, ← UInt8.toNat_inj, (hcounts.digits htotal n).2.2]
  rfl

include hcounts htotal hrow in
/-- What is left of the pulse depends on the line alone. -/
theorem vsyncCounter_clocks (hcounted : (c.pulse .vertical).Counted) (hleft : c.vsyncCounter = 0)
    (hbehind : c.verticalSyncPosition ≠ 0) (n : Nat) : (clock^[n] c).vsyncCounter.toNat =
      (c.schedule hfits).left (n / (c.horizontalTotal.toNat + 1)) := by
  let s := c.schedule hfits
  induction n with
  | zero =>
    have hdown : ¬s.Up 0 := fun h => by
      have hposition : c.verticalSyncPosition.toNat ≠ 0 := fun h => hbehind (UInt8.toNat_inj.mp h)
      have hpos : 0 < s.first := Nat.mul_pos (Nat.pos_of_ne_zero hposition) (Nat.succ_pos _)
      exact absurd h.1 (Nat.not_le_of_lt hpos)
    rw [Nat.zero_div, Schedule.left_of_not_up hdown, Function.iterate_zero_apply, hleft]
    rfl
  | succ n ih =>
    have htotal' := c.horizontalTotal_clocks n
    have hends : (clock^[n] c).passes .vertical = true ↔ c.horizontalTotal.toNat + 1 ∣ n + 1 := by
      rw [passes, (hcounts.clocks htotal n).endsLine_iff (htotal' ▸ htotal), htotal']
    have hclock := (counted_clock (counted_clocks hcounted n)).2
    rw [← Function.iterate_succ_apply' clock, pulseWidth_of_registers (c.registers_clocks n)] at hclock
    simp only [inPlace_clocks hcounts htotal hrow hfits] at hclock
    -- The pulse is counted down at the end of a line, and stands still within it.
    have hline : (n + 1) / (c.horizontalTotal.toNat + 1) =
        n / (c.horizontalTotal.toNat + 1) + if (clock^[n] c).passes .vertical = true then 1 else 0 := by
      simp only [Nat.succ_div, hends]
    cases hpasses : (clock^[n] c).passes .vertical with
    | false =>
      simp only [hpasses, Bool.false_eq_true, if_false, Nat.add_zero] at hline
      rw [hline, s.left_stays, ← ih, ← hline]
      rwa [hpasses] at hclock
    | true =>
      simp only [hpasses, if_true] at hline
      rw [hline, s.left_succ, ← ih, ← hline]
      rwa [hpasses] at hclock

include hcounts htotal hrow in
theorem vsync_clocks (hcounted : (c.pulse .vertical).Counted) (hleft : c.vsyncCounter = 0)
    (hbehind : c.verticalSyncPosition ≠ 0) (n : Nat) : (clock^[n] c).vsync = true ↔
      (c.schedule hfits).Up (n / (c.horizontalTotal.toNat + 1)) := by
  rw [← Schedule.left_pos_iff, ← vsyncCounter_clocks hcounts htotal hrow hfits hcounted hleft hbehind]
  exact counted_clocks hcounted n

end Clocks

theorem between_eq_rising_iff {before after : Bool} :
    Edge.between before after = some .rising ↔ ¬before = true ∧ after = true := by
  cases before <;> cases after <;> simp [Edge.between]

theorem between_eq_falling_iff {before after : Bool} :
    Edge.between before after = some .falling ↔ before = true ∧ ¬after = true := by
  cases before <;> cases after <;> simp [Edge.between]

/-- The first character of the first line of a row. -/
theorem first_of_row_iff {k height rows row : Nat} (hk : 0 < k) (hheight : 0 < height) (hrow : row < rows)
    (n : Nat) : n % k = 0 ∧ n / k % height = 0 ∧ n / k / height % rows = row ↔
      ∃ frame, n = (frame * (rows * height) + row * height) * k := by
  have hsplit (frame : Nat) :
      (frame * (rows * height) + row * height) * k = (frame * rows + row) * height * k := by
    rw [Nat.add_mul _ _ height, Nat.mul_assoc]
  constructor
  · rintro ⟨hchar, hline, hrow⟩
    refine ⟨n / k / height / rows, ?_⟩
    rw [hsplit, ← hrow, Nat.div_add_mod', Nat.div_mul_cancel (Nat.dvd_of_mod_eq_zero hline),
      Nat.div_mul_cancel (Nat.dvd_of_mod_eq_zero hchar)]
  · rintro ⟨frame, rfl⟩
    rw [hsplit, Nat.mul_mod_left, Nat.mul_div_cancel _ hk, Nat.mul_mod_left, Nat.mul_div_cancel _ hheight,
      Nat.mul_add_mod_self_right, Nat.mod_eq_of_lt hrow]
    exact ⟨rfl, rfl, rfl⟩

/-- **The vertical sync of a controller that nobody writes to**, from counters at zero and with any
registers, R0 being at most 254 and R7 a row of the picture behind the first. Let a pulse of `w` lines be
put to the next until row R7 is over, which makes `long` lines. If that is less than a picture, the
sync goes up with the first clock of row R7 of every picture, goes down `long` lines later, and
nothing else is reported of it. -/
theorem vsync_pulses (registers : Vector UInt8 18) (address : UInt8) :
    let c : Crtc := { registers, address }
    let r (i : Fin 18) : Nat := (registers.get i).toNat
    let w := if r 3 / 16 = 0 then 16 else r 3 / 16
    let height := r 9 + 1
    let lines := (r 4 + 1) * height
    let long := w * ((height + w - 1) / w)
    r 0 ≤ 254 → 1 ≤ r 7 → r 7 ≤ r 4 → long < lines → ∀ n,
      ((.vertical, .rising) ∈ (clock^[n] c).reports ↔
        ∃ frame, n + 1 = (frame * lines + r 7 * height) * (r 0 + 1)) ∧
      ((.vertical, .falling) ∈ (clock^[n] c).reports ↔
        ∃ frame, n + 1 = (frame * lines + r 7 * height + long) * (r 0 + 1)) ∧
      ((clock^[n] c).hCounter.toNat = 0 ∧ (clock^[n] c).scanline.toNat = 0 ∧
          (clock^[n] c).vCounter.toNat = r 7 ↔
        ∃ frame, n = (frame * lines + r 7 * height) * (r 0 + 1)) := by
  intro c r w height lines long htotal hbehind hrow hfits n
  have htop : c.horizontalTotal ≤ 254 := UInt8.le_iff_toNat_le.mpr htotal
  have hwidth : (c.pulseWidth .vertical).toNat = w := c.toNat_pulseWidth .vertical
  let s : Schedule := c.schedule (by rwa [hwidth])
  have hlong : s.length = long := congrArg (pulsesLength · height) hwidth
  have hfirst : 0 < s.first := Nat.mul_pos hbehind (Nat.succ_pos _)
  have hcounts : c.Counts 0 := ⟨(Nat.zero_mod _).symm, by simp [c], by simp [c]⟩
  have hup (n : Nat) : (clock^[n] c).vsync = true ↔ s.Up (n / (r 0 + 1)) := by
    have hcounted : (c.pulse .vertical).Counted := by simp [Pulse.Counted, pulse, c]
    have hposition : c.verticalSyncPosition ≠ 0 := fun h => by
      have hzero : r 7 = 0 := congrArg UInt8.toNat h
      omega
    exact vsync_clocks hcounts htop (UInt8.le_iff_toNat_le.mpr hrow) _ hcounted rfl hposition n
  have hedge {edge : Edge} : (.vertical, edge) ∈ (clock^[n] c).reports ↔
      Edge.between (clock^[n] c).vsync (clock^[n + 1] c).vsync = some edge := by
    rw [mem_reports_iff, ← Function.iterate_succ_apply' clock, sync_vertical, sync_vertical]
  refine ⟨?_, ?_, ?_⟩
  · rw [hedge, between_eq_rising_iff, hup, hup]
    exact Schedule.rises_between_iff (Nat.succ_pos _) hfirst n
  · rw [hedge, between_eq_falling_iff, hup, hup, Schedule.falls_between_iff (Nat.succ_pos _) hfirst, hlong]
    rfl
  · obtain ⟨hchar, hline, hrow'⟩ := hcounts.digits htop n
    rw [hchar, hline, hrow']
    exact first_of_row_iff (Nat.succ_pos _) (Nat.succ_pos _) (Nat.lt_succ_of_le hrow) n

/-- Pulses of three lines where a row has eight: it takes three of them to get behind it. -/
def shortPulses : Vector UInt8 18 := initialRegisters.setIfInBounds 3 0x3E

/-- A picture long after the first. There are no edges where the pulses within the row end. -/
theorem vsync_pulses_shortPulses :
    let c : Crtc := { registers := shortPulses }
    let row := (1000 * 312 + 240) * 64
    (shortPulses.get 0).toNat ≤ 254 ∧
    (1 ≤ (shortPulses.get 7).toNat ∧ (shortPulses.get 7).toNat ≤ (shortPulses.get 4).toNat) ∧
    ((shortPulses.get 3).toNat / 16 = 3 ∧ 3 * ((8 + 3 - 1) / 3) = 9) ∧
    ((clock^[row] c).hCounter.toNat = 0 ∧ (clock^[row] c).scanline.toNat = 0 ∧
      (clock^[row] c).vCounter.toNat = 30) ∧
    (.vertical, .rising) ∈ (clock^[row - 1] c).reports ∧
    (.vertical, .falling) ∉ (clock^[row + 3 * 64 - 1] c).reports ∧
    (.vertical, .falling) ∉ (clock^[row + 6 * 64 - 1] c).reports ∧
    (.vertical, .falling) ∈ (clock^[row + 9 * 64 - 1] c).reports := by
  intro c row
  have hpulses := vsync_pulses shortPulses 0 (by decide) (by decide) (by decide) (by decide)
  have hfalling {n : Nat} : (.vertical, .falling) ∈ (clock^[n] c).reports ↔
      ∃ frame, n + 1 = (frame * 312 + 240 + 9) * 64 := (hpulses n).2.1
  refine ⟨by decide, by decide, by decide, (hpulses row).2.2.mpr ⟨1000, by decide⟩,
    (hpulses (row - 1)).1.mpr ⟨1000, by decide⟩, ?_, ?_, hfalling.mpr ⟨1000, by decide⟩⟩
  · intro h
    obtain ⟨frame, hframe⟩ := hfalling.mp h
    omega
  · intro h
    obtain ⟨frame, hframe⟩ := hfalling.mp h
    omega

end Crtc

end AmstradCpc
