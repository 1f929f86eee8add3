/-
The counters of the sound chip stay in range, whatever programs do between two clocks (`Access`). A
step compares the counter with the period of that moment and starts it again from there on, so what a
step leaves is below the longest period that the registers can hold (`Masked`), also when a period has
just been lowered below the running counter. The feedback register of the noise never becomes zero:
what leaves it at the bottom comes in at the top. How many clocks are counted for a sample depends on
the rates that a chip is made for: fewer than the sample lasts if its phase can get there (`Counted`),
and otherwise all of them (`Endless`), as the phase is kept in single precision and stays at `2 ^ 24`.
-/
import AmstradCpc.Peripherals
import AmstradCpc.Proofs.Psg.Clock
import AmstradCpc.Proofs.Psg.SinglePrecision

namespace AmstradCpc.Psg

/-! ## One step of a generator -/

theorem maxOfLe_le {α : Type} [LE α] [DecidableLE α] {a b c : α} (ha : a ≤ c) (hb : b ≤ c) :
    @max α maxOfLe a b ≤ c := by
  show (if a ≤ b then b else a) ≤ c
  split <;> assumption

theorem Tone.counter_step (t : Tone) {period : UInt16} (h : period ≤ 4095) :
    (t.step period).counter.toNat ≤ 4094 := by
  have hmax : max period 1 ≤ 4095 := maxOfLe_le h (by decide)
  simp only [step]
  split
  · exact Nat.zero_le _
  next hless => exact Nat.le_of_lt_succ (UInt16.lt_of_lt_of_le (UInt16.not_le.mp hless) hmax)

/-- The noise counts below its longest period, and its feedback register has 17 bits, not all zero. -/
structure Noise.InRange (n : Noise) : Prop where
  counter : n.counter.toNat ≤ 30
  register_pos : 1 ≤ n.register.toNat
  register_lt : n.register.toNat < 2 ^ 17

/-- The lowest bit comes in at the top when it is the only one. -/
theorem Noise.shift_range {r : UInt32} (hpos : 1 ≤ r.toNat) (hlt : r.toNat < 2 ^ 17) :
    1 ≤ (shift r).toNat ∧ (shift r).toNat < 2 ^ 17 := by
  have hshift : (shift r).toNat = r.toNat / 2 ||| (((r ^^^ r >>> 3) &&& 1) <<< 16).toNat := by
    rw [shift, UInt32.toNat_or, UInt32.toNat_shiftRight]
    rfl
  constructor
  · rcases Nat.eq_or_lt_of_le hpos with hone | hmore
    · rw [UInt32.toNat_inj.mp (show r.toNat = (1 : UInt32).toNat from hone.symm)]
      decide
    · rw [hshift]
      exact Nat.le_trans (by omega) Nat.left_le_or
  · have hbit : ((r ^^^ r >>> 3) &&& 1).toNat ≤ 1 := by
      rw [UInt32.toNat_and]
      exact Nat.and_le_right
    have htop : (((r ^^^ r >>> 3) &&& 1) <<< 16).toNat < 2 ^ 17 := by
      rw [UInt32.toNat_shiftLeft, Nat.shiftLeft_eq]
      exact Nat.lt_of_le_of_lt (Nat.mod_le ..) (show _ * 65536 < 131072 by omega)
    rw [hshift]
    exact Nat.or_lt_two_pow (by omega) htop

theorem Noise.InRange.step {n : Noise} (h : n.InRange) {period : UInt8} (hperiod : period ≤ 31) :
    (n.step period).InRange := by
  have hmax : max period 1 ≤ 31 := maxOfLe_le hperiod (by decide)
  simp only [Noise.step]
  split
  · obtain ⟨hpos, hlt⟩ := shift_range h.register_pos h.register_lt
    exact ⟨Nat.zero_le _, hpos, hlt⟩
  next hless =>
    exact ⟨Nat.le_of_lt_succ (UInt8.lt_of_lt_of_le (UInt8.not_le.mp hless) hmax), h.register_pos, h.register_lt⟩

structure Envelope.InRange (e : Envelope) : Prop where
  position : e.position.toNat ≤ 15
  counter : e.counter.toNat < 131070

theorem Envelope.inRange_start (shape : Shape) : (start shape).InRange := ⟨Nat.zero_le _, Nat.zero_lt_succ _⟩

theorem Envelope.InRange.step {e : Envelope} (h : e.InRange) {period : UInt32} (hperiod : period ≤ 131070)
    (shape : Shape) : (e.step period shape).InRange := by
  have hmax : max period 1 ≤ 131070 := maxOfLe_le hperiod (by decide)
  simp only [Envelope.step]
  split
  · exact h
  split
  next hless => exact ⟨h.position, UInt32.lt_of_lt_of_le hless hmax⟩
  split
  next hramp => exact ⟨Nat.le_of_lt_succ hramp, Nat.zero_lt_succ _⟩
  · unfold endRamp
    split
    · exact ⟨Nat.le_refl _, Nat.zero_lt_succ _⟩
    · refine ⟨?_, Nat.zero_lt_succ _⟩
      cases shape.hold
      · exact Nat.zero_le _
      · exact Nat.le_refl _

/-! ## Registers -/

/-- No register has bits that it does not keep. -/
def Masked (p : Psg) : Prop := ∀ i (h : i < 16), p.registers[i] ≤ mask i

theorem masked_of_zero {p : Psg} (h : p.registers = .replicate 16 0) : p.Masked := by
  intro i hi
  rw [h, Vector.getElem_replicate]
  exact UInt8.le_iff_toNat_le.mpr (Nat.zero_le _)

theorem Masked.poke {p : Psg} (h : p.Masked) (i : Nat) (v : UInt8) : (p.poke i v).Masked := by
  intro j hj
  simp only [poke_eq, Vector.getElem_setIfInBounds]
  split
  next heq => exact heq ▸ UInt8.and_le_right
  · exact h j hj

theorem registers_write (p : Psg) (v : UInt8) :
    (p.write v).1.registers = (p.poke p.selected.toNat v).registers := by
  simp only [write]
  split <;> rfl

/-- A period in two registers, of which the higher keeps four bits. -/
theorem joinBytes_le {hi lo : UInt8} (h : hi ≤ 0x0F) : joinBytes hi lo ≤ 4095 := by
  have hhi : hi.toNat ≤ 15 := h
  have hlo := lo.toNat_lt
  rw [UInt16.le_iff_toNat_le, toNat_joinBytes]
  exact show _ ≤ 4095 by omega

theorem envelopePeriod_le (p : Psg) : p.envelopePeriod ≤ 131070 := by
  have hlt := (joinBytes (p.peek 12) (p.peek 11)).toNat_lt
  rw [UInt32.le_iff_toNat_le, toNat_envelopePeriod]
  exact show 2 * _ ≤ 131070 by omega

/-! ## Ranges -/

/-- The prescaler and the generators are in range. -/
structure InRange (p : Psg) : Prop where
  prescaler : p.prescaler.toNat < 8
  toneA : p.toneA.counter.toNat ≤ 4094
  toneB : p.toneB.counter.toNat ≤ 4094
  toneC : p.toneC.counter.toNat ≤ 4094
  noise : p.noise.InRange
  envelope : p.envelope.InRange

theorem inRange_reset (p : Psg) : p.reset.InRange where
  prescaler := Nat.zero_lt_succ _
  toneA := Nat.zero_le _
  toneB := Nat.zero_le _
  toneC := Nat.zero_le _
  noise := ⟨Nat.zero_le _, Nat.le_refl _, Nat.one_lt_two_pow (by decide)⟩
  envelope := ⟨Nat.zero_le _, Nat.zero_lt_succ _⟩

theorem InRange.stepGenerators {p : Psg} (h : p.InRange) (hmasked : p.Masked) : p.stepGenerators.InRange where
  prescaler := h.prescaler
  toneA := Tone.counter_step _ (joinBytes_le (hmasked 1 (by decide)))
  toneB := Tone.counter_step _ (joinBytes_le (hmasked 3 (by decide)))
  toneC := Tone.counter_step _ (joinBytes_le (hmasked 5 (by decide)))
  noise := h.noise.step (hmasked 6 (by decide))
  envelope := h.envelope.step p.envelopePeriod_le _

theorem InRange.clock {p : Psg} (h : p.InRange) (hmasked : p.Masked) : p.clock.InRange := by
  have hprescale : p.prescale.InRange := by
    unfold prescale
    split
    · exact InRange.stepGenerators { h with prescaler := Nat.zero_lt_succ _ } hmasked
    next hless =>
      have hseven := mt (prescaler_full_iff (UInt8.lt_iff_toNat_lt.mpr h.prescaler)).mpr hless
      have hlt := h.prescaler
      have hnext : (p.prescaler + 1).toNat = p.prescaler.toNat + 1 :=
        toNat_prescaler_add_one (UInt8.lt_iff_toNat_lt.mpr h.prescaler)
      exact { h with prescaler := show (p.prescaler + 1).toNat < 8 by omega }
  rw [Psg.clock, collect_eq]
  exact { hprescale with }

theorem InRange.poke {p : Psg} (h : p.InRange) (i : Nat) (v : UInt8) : (p.poke i v).InRange := by
  rw [poke_eq]
  exact { h with }

theorem InRange.write {p : Psg} (h : p.InRange) (v : UInt8) : (p.write v).1.InRange := by
  have hpoke := h.poke p.selected.toNat v
  simp only [Psg.write]
  split
  · exact { hpoke with envelope := Envelope.inRange_start _ }
  all_goals exact hpoke

/-- Adding one to a counter does not take it out of its type. -/
structure CountsOn (p : Psg) : Prop where
  prescaler : (p.prescaler + 1).toNat = p.prescaler.toNat + 1
  toneA : (p.toneA.counter + 1).toNat = p.toneA.counter.toNat + 1
  toneB : (p.toneB.counter + 1).toNat = p.toneB.counter.toNat + 1
  toneC : (p.toneC.counter + 1).toNat = p.toneC.counter.toNat + 1
  noise : (p.noise.counter + 1).toNat = p.noise.counter.toNat + 1
  envelope : (p.envelope.counter + 1).toNat = p.envelope.counter.toNat + 1
  position : (p.envelope.position + 1).toNat = p.envelope.position.toNat + 1

theorem InRange.countsOn {p : Psg} (h : p.InRange) : p.CountsOn := by
  obtain ⟨hprescaler, htoneA, htoneB, htoneC, hnoise, henvelope⟩ := h
  have hcounter := hnoise.counter
  have hposition := henvelope.position
  have henvelope := henvelope.counter
  constructor <;> first | rw [UInt8.toNat_add] | rw [UInt16.toNat_add] | rw [UInt32.toNat_add]
  all_goals exact Nat.mod_eq_of_lt (show _ + 1 < _ by omega)

/-! ## Samples -/

open SinglePrecision

/-- Adding one to the counter of the sample under way does not take it out of its type. -/
def SampleCountsOn (p : Psg) : Prop := (p.summed + 1).toNat = p.summed.toNat + 1

variable {length : Float32}

/-- The sample under way lasts at least as long as the clocks that are counted for it, and is not over. -/
structure Counted (length : Float32) (p : Psg) : Prop where
  clocksPerSample : p.clocksPerSample = length
  phase : AtLeast (whole p.summed.toNat) p.phase.toModel.unpack
  short : p.summed = 0 ∨ ¬length ≤ p.phase

/-- Fewer clocks are counted than any number that a sample does not last longer than. -/
theorem Counted.summed_lt {p : Psg} (h : p.Counted length) {n : Nat} {most : Float32} (hn : 0 < n)
    (hlength : length ≤ most) (hmost : AtMost (whole n) most.toModel.unpack) : p.summed.toNat < n := by
  refine Nat.lt_of_not_le fun hle => ?_
  have hphase := h.phase.mono (whole_le_whole.mpr hle)
  rcases h.short with hzero | hless
  · rw [hzero] at hle
    exact absurd (Nat.le_zero.mp hle) hn.ne'
  · exact hless (le_of_atMost_of_atLeast hlength hmost hphase)

theorem Counted.summed_add_one {p : Psg} (h : p.Counted length) (hlength : length ≤ 16777216) :
    (p.summed + 1).toNat = p.summed.toNat + 1 := by
  have hlt := h.summed_lt (Nat.two_pow_pos 24) hlength atMost_top
  rw [UInt32.toNat_add]
  exact Nat.mod_eq_of_lt (show _ + 1 < _ by omega)

theorem Counted.collect {p : Psg} (h : p.Counted length) (hlength : length ≤ 16777216) :
    p.collect.Counted length := by
  have hlt := h.summed_lt (Nat.two_pow_pos 24) hlength atMost_top
  have hnext : AtLeast (whole (p.summed + 1).toNat) (p.phase + 1).toModel.unpack := by
    rw [h.summed_add_one hlength]
    exact atLeast_add_one hlt h.phase
  have hone : AtLeast (whole 1) (p.phase + 1).toModel.unpack := by
    refine hnext.mono (whole_le_whole.mpr ?_)
    rw [h.summed_add_one hlength]
    exact Nat.le_add_left 1 _
  simp only [Psg.collect, h.clocksPerSample]
  split
  next hover =>
    refine ⟨rfl, ?_, .inl rfl⟩
    have hrest := atLeast_sub hover hlength hone
    exact hrest.mono (Nat.zero_mul _).le
  next hless => exact ⟨rfl, hnext, .inr hless⟩

/-- The sample under way never ends. -/
structure Endless (length : Float32) (p : Psg) : Prop where
  clocksPerSample : p.clocksPerSample = length
  phase : AtMost (whole (2 ^ 24)) p.phase.toModel.unpack

theorem Endless.collect {p : Psg} (h : p.Endless length) (hlength : ¬length ≤ 16777216) :
    p.collect.Endless length ∧ p.collect.summed = p.summed + 1 := by
  have hnext := atMost_add_one h.phase
  have hless : ¬length ≤ p.phase + 1 := fun hover => hlength (le_of_atMost_of_atLeast hover hnext atLeast_top)
  simp only [Psg.collect, h.clocksPerSample, if_neg hless, and_true]
  exact ⟨rfl, hnext⟩

/-- As many clocks are counted for the sample under way in `q` as in `p`, and it lasts as long. -/
structure SameSample (p q : Psg) : Prop where
  clocksPerSample : q.clocksPerSample = p.clocksPerSample
  phase : q.phase = p.phase
  summed : q.summed = p.summed

theorem Counted.of_sameSample {p q : Psg} (h : p.Counted length) (hq : p.SameSample q) : q.Counted length where
  clocksPerSample := hq.clocksPerSample.trans h.clocksPerSample
  phase := by
    rw [hq.phase, hq.summed]
    exact h.phase
  short := by
    rw [hq.phase, hq.summed]
    exact h.short

theorem Endless.of_sameSample {p q : Psg} (h : p.Endless length) (hq : p.SameSample q) : q.Endless length where
  clocksPerSample := hq.clocksPerSample.trans h.clocksPerSample
  phase := by
    rw [hq.phase]
    exact h.phase

theorem sameSample_prescale (p : Psg) : p.SameSample p.prescale := by
  unfold prescale
  split <;> exact ⟨rfl, rfl, rfl⟩

theorem Endless.clock {p : Psg} (h : p.Endless length) (hlength : ¬length ≤ 16777216) :
    p.clock.Endless length ∧ p.clock.summed = p.summed + 1 := by
  rw [← p.sameSample_prescale.summed]
  exact (h.of_sameSample p.sameSample_prescale).collect hlength

/-- A sample that never ends counts all clocks. -/
theorem Endless.clocks {p : Psg} (h : p.Endless length) (hlength : ¬length ≤ 16777216) {n : Nat}
    (hn : p.summed.toNat + n < 2 ^ 32) :
    (Psg.clock^[n] p).Endless length ∧ (Psg.clock^[n] p).summed.toNat = p.summed.toNat + n := by
  induction n with
  | zero => exact ⟨h, rfl⟩
  | succ n ih =>
    obtain ⟨hendless, hsummed⟩ := ih (by omega)
    obtain ⟨hnext, hcount⟩ := hendless.clock hlength
    rw [Function.iterate_succ_apply']
    refine ⟨hnext, ?_⟩
    rw [hcount, UInt32.toNat_add, hsummed]
    exact Nat.mod_eq_of_lt hn

/-- Its counter is full after so many clocks that no other fits into a word. -/
theorem Endless.counter_runs_out {p : Psg} (h : p.Endless length) (hlength : ¬length ≤ 16777216) :
    ¬(Psg.clock^[2 ^ 32 - 1 - p.summed.toNat] p).SampleCountsOn := by
  have hlt := p.summed.toNat_lt
  have hroom : p.summed.toNat + (2 ^ 32 - 1 - p.summed.toNat) < 2 ^ 32 := by omega
  obtain ⟨-, hsummed⟩ := h.clocks hlength hroom
  rw [SampleCountsOn, UInt32.toNat_add, hsummed]
  intro hcount
  omega

/-! ## Accesses -/

/-- What is done to a sound chip. -/
inductive Access where
  | select (register : UInt8)
  | write (v : UInt8)
  | poke (i : Nat) (v : UInt8)
  | read
  | reset
  | clock
  deriving DecidableEq

def perform (p : Psg) : Access → Psg
  | .select register => p.select register
  | .write v => (p.write v).1
  | .poke i v => p.poke i v
  -- Reading answers a byte and changes nothing.
  | .read => p
  | .reset => p.reset
  | .clock => p.clock

def performAll (p : Psg) (accesses : List Access) : Psg := accesses.foldl perform p

theorem performAll_keeps {P : Psg → Prop} (hstep : ∀ {p} access, P p → P (p.perform access)) {p : Psg} (h : P p)
    (accesses : List Access) : P (p.performAll accesses) := by
  induction accesses generalizing p with
  | nil => exact h
  | cons access accesses ih => exact ih (hstep access h)

theorem Masked.perform {p : Psg} (h : p.Masked) (access : Access) : (p.perform access).Masked := by
  cases access with
  | select register => exact h
  | write v =>
    have hpoke := h.poke p.selected.toNat v
    simp only [Masked, Psg.perform, registers_write]
    exact hpoke
  | poke i v => exact h.poke i v
  | read => exact h
  | reset => exact masked_of_zero rfl
  | clock =>
    simp only [Masked, Psg.perform, registers_clock]
    exact h

theorem InRange.perform {p : Psg} (h : p.InRange) (hmasked : p.Masked) (access : Access) :
    (p.perform access).InRange := by
  cases access with
  | select register => exact { h with }
  | write v => exact h.write v
  | poke i v => exact h.poke i v
  | read => exact h
  | reset => exact p.inRange_reset
  | clock => exact h.clock hmasked

/-- Nothing but a clock is about the sample under way. -/
theorem sameSample_perform (p : Psg) {access : Access} (h : access ≠ .clock) : p.SameSample (p.perform access) := by
  have hpoke (i : Nat) (v : UInt8) : p.SameSample (p.poke i v) := by
    rw [poke_eq]
    exact ⟨rfl, rfl, rfl⟩
  cases access with
  | clock => exact absurd rfl h
  | write v =>
    obtain ⟨hclocks, hphase, hsummed⟩ := hpoke p.selected.toNat v
    simp only [Psg.perform, Psg.write]
    split <;> exact ⟨hclocks, hphase, hsummed⟩
  | poke i v => exact hpoke i v
  | select | read | reset => exact ⟨rfl, rfl, rfl⟩

theorem Counted.perform {p : Psg} (h : p.Counted length) (hlength : length ≤ 16777216) (access : Access) :
    (p.perform access).Counted length := by
  by_cases hclock : access = .clock
  · subst hclock
    exact (h.of_sameSample p.sameSample_prescale).collect hlength
  · exact h.of_sameSample (p.sameSample_perform hclock)

theorem Endless.perform {p : Psg} (h : p.Endless length) (hlength : ¬length ≤ 16777216) (access : Access) :
    (p.perform access).Endless length := by
  by_cases hclock : access = .clock
  · subst hclock
    exact (h.clock hlength).1
  · exact h.of_sameSample (p.sameSample_perform hclock)

theorem amplitude_lt (p : Psg) (register : UInt8) : (p.amplitude register).toNat < 16 := by
  rw [amplitude]
  split
  · exact Nat.lt_succ_of_le p.envelope.level_le
  · exact Nat.lt_succ_of_le (show register &&& 0x0F ≤ 0x0F from UInt8.and_le_right)

theorem counted_initial (clock rate : UInt32) : (initial clock rate).Counted (clock.toFloat32 / rate.toFloat32) where
  clocksPerSample := rfl
  phase := unpack_zero ▸ .zero .positive (Nat.zero_mul _)
  short := .inl rfl

theorem endless_initial (clock rate : UInt32) : (initial clock rate).Endless (clock.toFloat32 / rate.toFloat32) where
  clocksPerSample := rfl
  phase := unpack_zero ▸ .zero .positive

theorem counted_performAll {clock rate : UInt32} (h : clock.toFloat32 / rate.toFloat32 ≤ 16777216)
    (accesses : List Access) :
    ((initial clock rate).performAll accesses).Counted (clock.toFloat32 / rate.toFloat32) :=
  performAll_keeps (fun access hp => hp.perform h access) (counted_initial clock rate) accesses

theorem endless_performAll {clock rate : UInt32} (h : ¬clock.toFloat32 / rate.toFloat32 ≤ 16777216)
    (accesses : List Access) :
    ((initial clock rate).performAll accesses).Endless (clock.toFloat32 / rate.toFloat32) :=
  performAll_keeps (fun access hp => hp.perform h access) (endless_initial clock rate) accesses

theorem performAll_clocks (p : Psg) (n : Nat) : p.performAll (.replicate n .clock) = Psg.clock^[n] p := by
  induction n generalizing p with
  | zero => rfl
  | succ n ih => exact ih p.clock

/-- **Whatever is done to a new sound chip, its prescaler and its generators stay in range**: no counter wraps
around when it is counted up, the noise does not get stuck, and there is an output for every amplitude. So it is
with the counter of the sample under way if a sample lasts at most `2 ^ 24` clocks, and only then. -/
theorem counters_inRange (clock rate : UInt32) :
    (∀ accesses, let p := (initial clock rate).performAll accesses
      p.InRange ∧ p.CountsOn ∧ ∀ register, (p.amplitude register).toNat < 16) ∧
    ((∀ accesses, ((initial clock rate).performAll accesses).SampleCountsOn) ↔
      clock.toFloat32 / rate.toFloat32 ≤ 16777216) := by
  refine ⟨fun accesses => ?_, fun hcounts => ?_, fun hlength accesses => ?_⟩
  · have hstep {q : Psg} (access : Access) (h : q.InRange ∧ q.Masked) :
        (q.perform access).InRange ∧ (q.perform access).Masked :=
      ⟨h.1.perform h.2 access, h.2.perform access⟩
    have hinitial : (initial clock rate).InRange ∧ (initial clock rate).Masked :=
      ⟨(initial clock rate).inRange_reset, masked_of_zero rfl⟩
    obtain ⟨hrange, -⟩ := performAll_keeps (P := fun q => q.InRange ∧ q.Masked) hstep hinitial accesses
    exact ⟨hrange, hrange.countsOn, amplitude_lt _⟩
  · by_contra hlength
    refine (endless_initial clock rate).counter_runs_out hlength ?_
    rw [← performAll_clocks]
    exact hcounts _
  · exact (counted_performAll hlength accesses).summed_add_one hlength

/-- A chip that makes no samples runs out of the counter of its sample. -/
theorem sample_counter_runs_out :
    ¬((initial 1000000 0).performAll (.replicate (2 ^ 32 - 1) .clock)).SampleCountsOn := by
  have hlength : ¬(1000000 : UInt32).toFloat32 / (0 : UInt32).toFloat32 ≤ 16777216 := by decide +kernel
  rw [performAll_clocks]
  exact (endless_initial 1000000 0).counter_runs_out hlength

/-- The test in front of clocks is exact: it lets so many through if each of them finds room in the
counter, and no others. -/
theorem canClock_iff (clock rate : UInt32) (accesses : List Access) (n : Nat) :
    let p := (initial clock rate).performAll accesses
    p.canClock n = true ↔ ∀ k < n, (Psg.clock^[k] p).SampleCountsOn := by
  intro p
  by_cases hlength : clock.toFloat32 / rate.toFloat32 ≤ 16777216
  · have hcounted : p.Counted (clock.toFloat32 / rate.toFloat32) := counted_performAll hlength accesses
    refine iff_of_true ?_ fun k hk => ?_
    · rw [canClock, hcounted.clocksPerSample, decide_eq_true hlength, Bool.true_or]
    · have hclocks := counted_performAll hlength (accesses ++ .replicate k .clock)
      rw [performAll, List.foldl_append] at hclocks
      rw [← performAll_clocks]
      exact hclocks.summed_add_one hlength
  · have hendless : p.Endless (clock.toFloat32 / rate.toFloat32) := endless_performAll hlength accesses
    have hroom : p.canClock n = true ↔ p.summed.toNat + n < 2 ^ 32 := by
      rw [canClock, hendless.clocksPerSample, decide_eq_false hlength, Bool.false_or, decide_eq_true_iff]
      rfl
    rw [hroom]
    refine ⟨fun hroom k hk => ?_, fun hcounts => ?_⟩
    · obtain ⟨-, hsummed⟩ := hendless.clocks hlength (n := k) (by omega)
      rw [SampleCountsOn, UInt32.toNat_add, hsummed]
      exact Nat.mod_eq_of_lt (show _ + 1 < _ by omega)
    · have hlt := p.summed.toNat_lt
      by_contra hfull
      exact hendless.counter_runs_out hlength (hcounts _ (by omega))

/-- In the machine, no more than 22 clocks are ever counted for a sample. -/
theorem machine_summed_le (accesses : List Access) :
    ((initial Peripherals.psgClock Wav.sampleRate).performAll accesses).summed.toNat ≤ 22 := by
  have hlength : Peripherals.psgClock.toFloat32 / Wav.sampleRate.toFloat32 ≤ 23 := by decide +kernel
  have hunpack : (23 : Float32).toModel.unpack = .finite .positive (23 * 2 ^ 19) (-19) (by decide) := rfl
  have hnormal : Normal (23 * 2 ^ 19) (-19) := ⟨by decide, by decide, .inr (by decide)⟩
  have hmost : AtMost (whole 23) (23 : Float32).toModel.unpack := hunpack ▸ .finite hnormal (by decide)
  exact Nat.le_of_lt_succ ((counted_performAll (by decide +kernel) accesses).summed_lt (by decide) hlength hmost)

end AmstradCpc.Psg
