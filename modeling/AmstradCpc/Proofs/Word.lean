/-
What holds of every byte can be tried with each of the 256 (`forall_byte`). The bits of a byte, seen
one at a time: `bitOf_eq_getLsbD` leads to the bits of a bit vector, from which comes what the
operations on bytes do to each of them.
-/
import Mathlib.Data.FinEnum
import AmstradCpc.Word

namespace AmstradCpc

theorem forall_byte {P : UInt8 → Prop} (h : ∀ n : Fin 256, P (UInt8.ofNat n)) (v : UInt8) : P v := by
  simpa using h ⟨v.toNat, v.toNat_lt⟩

/-- A displacement is a signed byte. -/
theorem signExtend_eq (d : UInt8) : signExtend d = d.toInt8.toInt16.toUInt16 := by
  revert d
  exact forall_byte (by decide +kernel)

theorem bitOf_eq_getLsbD (v : UInt8) {n : UInt8} (hn : n < 8) :
    bitOf v n = v.toBitVec.getLsbD n.toNat := by
  have hn : n.toNat % 8 = n.toNat := Nat.mod_eq_of_lt (UInt8.lt_iff_toNat_lt.1 hn)
  rw [BitVec.getLsbD, Nat.testBit, Nat.and_comm, bitOf, Bool.eq_iff_iff, bne_iff_ne, bne_iff_ne, ne_eq,
    ne_eq, ← UInt8.toNat_inj]
  simp [hn]

theorem bitOf_bitIf : ∀ n < 8, ∀ i < 8, bitOf (bitIf true i) n = (n == i) := by decide +kernel

theorem bitOf_not (v : UInt8) {n : UInt8} (hn : n < 8) : bitOf (~~~v) n = !bitOf v n := by
  have hn' : n.toNat < 8 := UInt8.lt_iff_toNat_lt.1 hn
  simp [bitOf_eq_getLsbD _ hn, hn']

theorem bitOf_or (v w : UInt8) {n : UInt8} (hn : n < 8) :
    bitOf (v ||| w) n = (bitOf v n || bitOf w n) := by
  simp [bitOf_eq_getLsbD _ hn]

theorem bitOf_and (v w : UInt8) {n : UInt8} (hn : n < 8) :
    bitOf (v &&& w) n = (bitOf v n && bitOf w n) := by
  simp [bitOf_eq_getLsbD _ hn]

end AmstradCpc
