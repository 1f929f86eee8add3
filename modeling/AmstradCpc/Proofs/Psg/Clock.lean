/-
What writes and clocks of the sound chip leave alone. A write sets one register, and may start the
envelope again. Collecting the output changes nothing but the sample under way, so registers,
prescaler and generators after a clock are what the prescaler makes of them: the generators move
with every eighth clock, counted from where the prescaler stood.
-/
import Mathlib.Logic.Function.Iterate
import AmstradCpc.Psg

namespace AmstradCpc.Psg

/-! ## Registers -/

/-- The bits that a register has. -/
def mask (i : Nat) : UInt8 := (registerTable[i]?.map (·.mask)).getD 0

theorem poke_eq (p : Psg) (i : Nat) (v : UInt8) :
    p.poke i v = { p with registers := p.registers.setIfInBounds i (v &&& mask i) } := by
  by_cases hi : i < 16
  · simp [poke, mask, hi]
  · simp [poke, hi, Vector.setIfInBounds_eq_of_size_le (show 16 ≤ i by omega)]

/-- What writing a shape does: it is kept in its register, and the envelope starts with it. -/
theorem write_shape (p : Psg) (v : UInt8) :
    ((p.select 13).write v).1 = { p with
      selected := 13
      registers := p.registers.setIfInBounds 13 (v &&& 0x0F)
      envelope := .start (.ofByte (v &&& 0x0F)) } := by
  have hpoke : (p.select 13).poke 13 v =
      { p with selected := 13, registers := p.registers.setIfInBounds 13 (v &&& 0x0F) } := poke_eq ..
  have hshape : ((p.select 13).poke 13 v).shape = .ofByte (v &&& 0x0F) := by
    rw [hpoke, shape, Vector.getElem_setIfInBounds_self]
  change { (p.select 13).poke 13 v with envelope := .start ((p.select 13).poke 13 v).shape } = _
  rw [hshape, hpoke]

/-! ## Clocks -/

/-- Collecting the output is about the sample alone. -/
theorem collect_eq (p : Psg) : p.collect = { p with
    phase := p.collect.phase, sum := p.collect.sum, summed := p.collect.summed, buffer := p.collect.buffer } := by
  simp only [collect]
  split <;> rfl

@[simp] theorem registers_clock (p : Psg) : p.clock.registers = p.registers := by
  rw [clock, collect_eq, prescale]
  split <;> rfl

theorem selected_clock (p : Psg) : p.clock.selected = p.selected := by
  rw [clock, collect_eq, prescale]
  split <;> rfl

theorem prescaler_clock (p : Psg) :
    p.clock.prescaler = if p.prescaler + 1 = 8 then 0 else p.prescaler + 1 := by
  rw [clock, collect_eq, prescale]
  split <;> rfl

theorem envelope_clock (p : Psg) : p.clock.envelope =
    if p.prescaler + 1 = 8 then p.envelope.step p.envelopePeriod p.shape else p.envelope := by
  rw [clock, collect_eq, prescale]
  split <;> rfl

theorem toNat_prescaler_add_one {p : Psg} (h : p.prescaler < 8) :
    (p.prescaler + 1).toNat = p.prescaler.toNat + 1 := by
  have hlt : p.prescaler.toNat < 8 := h
  rw [UInt8.toNat_add, UInt8.toNat_one, Nat.mod_eq_of_lt (by omega)]

theorem toNat_envelopePeriod (p : Psg) :
    p.envelopePeriod.toNat = 2 * (joinBytes (p.peek 12) (p.peek 11)).toNat := by
  have hlt := (joinBytes (p.peek 12) (p.peek 11)).toNat_lt
  have hperiod : p.envelopePeriod = (joinBytes (p.peek 12) (p.peek 11)).toUInt32 * 2 := by
    simp [envelopePeriod, peek]
  rw [hperiod, UInt32.toNat_mul, UInt16.toNat_toUInt32, Nat.mul_comm]
  exact Nat.mod_eq_of_lt (show 2 * _ < 2 ^ 32 by omega)

/-- Whether the next clock moves the generators. -/
theorem prescaler_full_iff {p : Psg} (h : p.prescaler < 8) : p.prescaler + 1 = 8 ↔ p.prescaler.toNat = 7 := by
  rw [← UInt8.toNat_inj, toNat_prescaler_add_one h]
  exact Nat.succ_inj

/-- As long as there are only clocks, the envelope is stepped with every eighth of them. -/
theorem clocks_envelope {p : Psg} (h : p.prescaler < 8) (n : Nat) :
    (clock^[n] p).registers = p.registers ∧
    (clock^[n] p).prescaler.toNat = (p.prescaler.toNat + n) % 8 ∧
    (clock^[n] p).envelope =
      (fun e : Envelope => e.step p.envelopePeriod p.shape)^[(p.prescaler.toNat + n) / 8] p.envelope := by
  have hlt : p.prescaler.toNat < 8 := h
  induction n with
  | zero =>
    refine ⟨rfl, (Nat.mod_eq_of_lt hlt).symm, ?_⟩
    rw [Nat.add_zero, Nat.div_eq_of_lt hlt]
    rfl
  | succ n ih =>
    obtain ⟨hregisters, hprescaler, henvelope⟩ := ih
    have hperiod : (clock^[n] p).envelopePeriod = p.envelopePeriod := by simp only [envelopePeriod, hregisters]
    have hshape : (clock^[n] p).shape = p.shape := by simp only [shape, hregisters]
    have hbelow : (clock^[n] p).prescaler < 8 :=
      UInt8.lt_iff_toNat_lt.mpr (by rw [hprescaler]; exact Nat.mod_lt _ (by decide))
    rw [Function.iterate_succ_apply']
    refine ⟨(registers_clock _).trans hregisters, ?_⟩
    rw [prescaler_clock, envelope_clock, hperiod, hshape, henvelope]
    by_cases hfull : (clock^[n] p).prescaler + 1 = 8
    · have hseven := (prescaler_full_iff hbelow).mp hfull
      rw [if_pos hfull, if_pos hfull, ← Function.iterate_succ_apply' (fun e : Envelope => e.step _ _)]
      refine ⟨?_, congrArg (fun k => (fun e : Envelope => e.step _ _)^[k] _) (by omega)⟩
      rw [UInt8.toNat_zero]
      omega
    · have hseven := mt (prescaler_full_iff hbelow).mpr hfull
      rw [if_neg hfull, if_neg hfull, toNat_prescaler_add_one hbelow]
      exact ⟨by omega, congrArg (fun k => (fun e : Envelope => e.step _ _)^[k] _) (by omega)⟩

end AmstradCpc.Psg
