/-
Counts of CPU clock cycles. Time only moves forward, so a difference of two
counts stops at zero; sums are those of 64-bit words.
-/
namespace AmstradCpc

/-- A count of clock cycles (T-states, at 4 MHz). -/
structure Ticks where
  count : UInt64 := 0
  deriving DecidableEq, Repr, Inhabited

namespace Ticks

def zero : Ticks := {}

/-- Two stretches of time, one after the other. -/
def add (a b : Ticks) : Ticks := ⟨a.count + b.count⟩

/-- A count advanced by the cost of an instruction. -/
@[inline] def advance (t : Ticks) (cycles : Nat) : Ticks := ⟨t.count + cycles.toUInt64⟩

/-- So many more cycles can be counted. -/
def canAdvance (t : Ticks) (cycles : Nat) : Bool := t.count.toNat + cycles < UInt64.size

/-- The time from `b` to `a`, or none at all if `b` is the later. -/
def since (a b : Ticks) : Ticks := ⟨if b.count ≤ a.count then a.count - b.count else 0⟩

def compare (a b : Ticks) : Ordering := Ord.compare a.count b.count

@[simp] theorem advance_zero (t : Ticks) : t.advance 0 = t :=
  congrArg Ticks.mk (UInt64.add_zero t.count)

theorem advance_advance (t : Ticks) (a b : Nat) : (t.advance a).advance b = t.advance (a + b) := by
  simp only [advance, Nat.toUInt64, UInt64.ofNat_add, UInt64.add_assoc]

theorem toNat_advance {t : Ticks} {cycles : Nat} (h : t.canAdvance cycles) :
    (t.advance cycles).count.toNat = t.count.toNat + cycles := by
  simp only [canAdvance, decide_eq_true_eq] at h
  have low : cycles.toUInt64.toNat = cycles := UInt64.toNat_ofNat_of_lt' (Nat.lt_of_le_of_lt (Nat.le_add_left ..) h)
  rw [advance, UInt64.toNat_add, low, Nat.mod_eq_of_lt h]

end Ticks

end AmstradCpc
