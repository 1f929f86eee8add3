/-
Sums and differences of words, done in two bytes. A byte operation keeps the exact sum or difference,
since what does not fit its result goes into its carry (`add8_exact`, `sub8_exact`). So the operation on
the low bytes passes on to the one on the high bytes all that it needs, and the second one leaves the
flags of the whole (`word_arithmetic_in_bytes`).
-/
import AmstradCpc.Cpu.Arithmetic

namespace AmstradCpc.Cpu

/-- An operation with a carry on the low bytes of two words, and then on the high bytes with the
carry that comes of it: the word of both results, and the flags of the second. -/
def inBytes (op : UInt8 → UInt8 → Bool → UInt8 × Flags) (a b : UInt16) (carry : Bool) : UInt16 × Flags :=
  let low := op (lowByte a) (lowByte b) carry
  let high := op (highByte a) (highByte b) low.2.carry
  (joinBytes high.1 low.1, high.2)

theorem toNat_bitIf (b : Bool) : (bitIf b 0).toNat = b.toNat := by cases b <;> rfl

theorem toNat_decide (p : Prop) [Decidable p] : (decide p).toNat = if p then 1 else 0 := by
  split <;> simp [*]

theorem toNat_eq_bytes (w : UInt16) : w.toNat = (highByte w).toNat * 256 + (lowByte w).toNat := by
  rw [← toNat_joinBytes, joinBytes_halves]

/-- The low twelve bits are those of the low byte and the low nibble of the high one. -/
theorem low12_eq (w : UInt16) : low12 w = lowNibble (highByte w) * 256 + (lowByte w).toNat := by
  have hlow := (lowByte w).toNat_lt
  rw [low12, lowNibble, toNat_eq_bytes]
  omega

theorem highByte_inBytes (op : UInt8 → UInt8 → Bool → UInt8 × Flags) (a b : UInt16) (carry : Bool) :
    highByte (inBytes op a b carry).1 =
      (op (highByte a) (highByte b) (op (lowByte a) (lowByte b) carry).2.carry).1 :=
  highByte_joinBytes _ _

/-! ## Sums -/

theorem add8_exact (a b : UInt8) (carry : Bool) :
    (add8 a b carry).1.toNat + 256 * (add8 a b carry).2.carry.toNat = a.toNat + b.toNat + carry.toNat := by
  have ha := a.toNat_lt
  have hb := b.toNat_lt
  have hcarry := Bool.toNat_le carry
  simp only [add8, UInt8.toNat_add, toNat_bitIf, toNat_decide]
  split <;> omega

theorem add16_value (a b : UInt16) (carry : Bool) :
    a + b + (bitIf carry 0).toUInt16 = (inBytes add8 a b carry).1 := by
  have hlow := add8_exact (lowByte a) (lowByte b) carry
  have hhigh := add8_exact (highByte a) (highByte b) (add8 (lowByte a) (lowByte b) carry).2.carry
  have ha := toNat_eq_bytes a
  have hb := toNat_eq_bytes b
  have hresult := (inBytes add8 a b carry).1.toNat_lt
  rw [inBytes, toNat_joinBytes] at hresult
  rw [← UInt16.toNat_inj, inBytes, toNat_joinBytes, UInt16.toNat_add, UInt16.toNat_add, UInt8.toNat_toUInt16,
    toNat_bitIf]
  omega

/-- Bit 11 is bit 3 of the high byte. -/
theorem add16_half (a b : UInt16) (carry : Bool) :
    decide (4095 < low12 a + low12 b + carry.toNat) = (inBytes add8 a b carry).2.half := by
  have hlow := add8_exact (lowByte a) (lowByte b) carry
  have hbyte := (add8 (lowByte a) (lowByte b) carry).1.toNat_lt
  show _ = decide (15 < lowNibble (highByte a) + lowNibble (highByte b) +
    (add8 (lowByte a) (lowByte b) carry).2.carry.toNat)
  rw [low12_eq, low12_eq, decide_eq_decide]
  omega

theorem add16_carry (a b : UInt16) (carry : Bool) :
    decide (65535 < a.toNat + b.toNat + carry.toNat) = (inBytes add8 a b carry).2.carry := by
  have hlow := add8_exact (lowByte a) (lowByte b) carry
  have hbyte := (add8 (lowByte a) (lowByte b) carry).1.toNat_lt
  show _ = decide (255 < (highByte a).toNat + (highByte b).toNat +
    (add8 (lowByte a) (lowByte b) carry).2.carry.toNat)
  rw [toNat_eq_bytes a, toNat_eq_bytes b, decide_eq_decide]
  omega

/-! ## Differences -/

theorem sub8_exact (a b : UInt8) (borrow : Bool) :
    (sub8 a b borrow).1.toNat + b.toNat + borrow.toNat = a.toNat + 256 * (sub8 a b borrow).2.carry.toNat := by
  have ha := a.toNat_lt
  have hb := b.toNat_lt
  have hborrow := Bool.toNat_le borrow
  simp only [sub8, UInt8.toNat_sub, toNat_bitIf, toNat_decide]
  split <;> omega

theorem sub16_value (a b : UInt16) (borrow : Bool) :
    a - b - (bitIf borrow 0).toUInt16 = (inBytes sub8 a b borrow).1 := by
  have hlow := sub8_exact (lowByte a) (lowByte b) borrow
  have hhigh := sub8_exact (highByte a) (highByte b) (sub8 (lowByte a) (lowByte b) borrow).2.carry
  have ha := toNat_eq_bytes a
  have hb := toNat_eq_bytes b
  have hresult := (inBytes sub8 a b borrow).1.toNat_lt
  have hb' := b.toNat_lt
  have hborrow := Bool.toNat_le borrow
  rw [inBytes, toNat_joinBytes] at hresult
  rw [← UInt16.toNat_inj, inBytes, toNat_joinBytes, UInt16.toNat_sub, UInt16.toNat_sub, UInt8.toNat_toUInt16,
    toNat_bitIf]
  omega

theorem sub16_half (a b : UInt16) (borrow : Bool) :
    decide (low12 a < low12 b + borrow.toNat) = (inBytes sub8 a b borrow).2.half := by
  have hlow := sub8_exact (lowByte a) (lowByte b) borrow
  have hbyte := (sub8 (lowByte a) (lowByte b) borrow).1.toNat_lt
  show _ = decide (lowNibble (highByte a) < lowNibble (highByte b) +
    (sub8 (lowByte a) (lowByte b) borrow).2.carry.toNat)
  rw [low12_eq, low12_eq, decide_eq_decide]
  omega

theorem sub16_carry (a b : UInt16) (borrow : Bool) :
    decide (a.toNat < b.toNat + borrow.toNat) = (inBytes sub8 a b borrow).2.carry := by
  have hlow := sub8_exact (lowByte a) (lowByte b) borrow
  have hbyte := (sub8 (lowByte a) (lowByte b) borrow).1.toNat_lt
  show _ = decide ((highByte a).toNat < (highByte b).toNat +
    (sub8 (lowByte a) (lowByte b) borrow).2.carry.toNat)
  rw [toNat_eq_bytes a, toNat_eq_bytes b, decide_eq_decide]
  omega

/-! ## Words -/

/-- **Words are added and subtracted a byte at a time.** With a carry, the word and all flags are those
of the operation on the low bytes and then on the high ones, but for the zero flag, which
looks at the whole word. A plain sum comes without a carry, and keeps sign, zero and overflow. -/
theorem word_arithmetic_in_bytes (a b : UInt16) (f : Flags) :
    let sum := inBytes add8 a b f.carry
    let difference := inBytes sub8 a b f.carry
    let plain := inBytes add8 a b false
    adc16 a b f = (sum.1, { sum.2 with zero := sum.1 == 0 }) ∧
    sbc16 a b f = (difference.1, { difference.2 with zero := difference.1 == 0 }) ∧
    add16 a b f = (plain.1, { plain.2 with sign := f.sign, zero := f.zero, parity := f.parity }) := by
  intro sum difference plain
  refine ⟨?_, ?_, ?_⟩
  · rw [adc16, add16_value, add16_half, add16_carry, highByte_inBytes]
    rfl
  · rw [sbc16, sub16_value, sub16_half, sub16_carry, highByte_inBytes]
    rfl
  · have hvalue : a + b = plain.1 := by simpa [bitIf] using add16_value a b false
    have hhalf : decide (4095 < low12 a + low12 b) = plain.2.half := by simpa using add16_half a b false
    have hcarry : decide (65535 < a.toNat + b.toNat) = plain.2.carry := by simpa using add16_carry a b false
    rw [add16, hvalue, hhalf, hcarry, highByte_inBytes]
    rfl

end AmstradCpc.Cpu
