/-
Bytes and 16-bit words: the two halves of a word, a word from its halves, and
the signed displacement byte that relative jumps and indexed operands add to
an address. All arithmetic wraps at the width of its type.
-/
namespace AmstradCpc

/-- Bits 15 to 8 of a word. -/
@[inline] def highByte (w : UInt16) : UInt8 := (w >>> 8).toUInt8

/-- Bits 7 to 0 of a word. -/
@[inline] def lowByte (w : UInt16) : UInt8 := w.toUInt8

/-- The word with these two halves. -/
@[inline] def joinBytes (hi lo : UInt8) : UInt16 := hi.toUInt16 * 256 + lo.toUInt16

/-- A byte read as a two's complement number, widened to a word. -/
@[inline] def signExtend (d : UInt8) : UInt16 :=
  if d < 0x80 then d.toUInt16 else d.toUInt16 + 0xFF00

/-- Bit `n` of a byte, bit 0 being the lowest. -/
@[inline] def bitOf (v n : UInt8) : Bool := v >>> n &&& 1 != 0

/-- The byte whose only set bit is bit `n`, or none at all. -/
@[inline] def bitIf (b : Bool) (n : UInt8) : UInt8 := if b then 1 <<< n else 0

/-! ## Halves and wholes -/

theorem toNat_joinBytes (hi lo : UInt8) :
    (joinBytes hi lo).toNat = hi.toNat * 256 + lo.toNat := by
  have h := hi.toNat_lt
  have l := lo.toNat_lt
  simp [joinBytes]
  omega

theorem highByte_joinBytes (hi lo : UInt8) : highByte (joinBytes hi lo) = hi := by
  apply UInt8.toNat_inj.1
  have h := hi.toNat_lt
  have l := lo.toNat_lt
  simp [highByte, toNat_joinBytes, Nat.shiftRight_eq_div_pow]
  omega

theorem lowByte_joinBytes (hi lo : UInt8) : lowByte (joinBytes hi lo) = lo := by
  apply UInt8.toNat_inj.1
  simp [lowByte, toNat_joinBytes]

theorem joinBytes_halves (w : UInt16) : joinBytes (highByte w) (lowByte w) = w := by
  apply UInt16.toNat_inj.1
  have h := w.toNat_lt
  simp [toNat_joinBytes, highByte, lowByte, Nat.shiftRight_eq_div_pow]
  omega

end AmstradCpc
