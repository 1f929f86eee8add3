/-
The arithmetic and logic unit. Every operation is a function from its operands,
and from the flags where they matter, to a result and the new flags. Sums are
judged in the natural numbers, where they do not wrap: carry means that the
exact sum needs another bit.
-/
import AmstradCpc.Cpu.Flags

namespace AmstradCpc.Cpu

/-- The eight operations between the accumulator and an operand. -/
inductive AccOp where
  | add | adc | sub | sbc | and | xor | or | cp
  deriving DecidableEq, Repr, Inhabited

/-- The eight shifts and rotations by one place. -/
inductive Shift where
  | rlc | rrc | rl | rr | sla | sra | sll | srl
  deriving DecidableEq, Repr, Inhabited

/-- Bits 3 to 0. -/
def lowNibble (v : UInt8) : Nat := v.toNat % 16

/-- The sign bits of two operands agree and the result's does not. -/
def signFlipped (a b result : UInt8) : Bool :=
  bitOf a 7 == bitOf b 7 && bitOf a 7 != bitOf result 7

/-! ## Eight bits -/

def add8 (a b : UInt8) (carry : Bool) : UInt8 × Flags :=
  let result := a + b + bitIf carry 0
  (result, { Flags.ofResult result with
    half := 15 < lowNibble a + lowNibble b + carry.toNat
    parity := signFlipped a b result
    carry := 255 < a.toNat + b.toNat + carry.toNat })

def sub8 (a b : UInt8) (borrow : Bool) : UInt8 × Flags :=
  let result := a - b - bitIf borrow 0
  (result, { Flags.ofResult result with
    half := lowNibble a < lowNibble b + borrow.toNat
    parity := bitOf a 7 != bitOf b 7 && bitOf a 7 != bitOf result 7
    subtract := true
    carry := a.toNat < b.toNat + borrow.toNat })

/-- A comparison sets the flags of a difference, but takes the undocumented
ones from the operand. -/
def compare8 (a b : UInt8) : Flags := (sub8 a b false).2.withXY b

def and8 (a b : UInt8) : UInt8 × Flags :=
  (a &&& b, { Flags.ofLogic (a &&& b) with half := true })

def xor8 (a b : UInt8) : UInt8 × Flags := (a ^^^ b, Flags.ofLogic (a ^^^ b))

def or8 (a b : UInt8) : UInt8 × Flags := (a ||| b, Flags.ofLogic (a ||| b))

/-- The carry survives an increment. -/
def inc8 (v : UInt8) (f : Flags) : UInt8 × Flags :=
  (v + 1, { Flags.ofResult (v + 1) with
    half := lowNibble v == 15
    parity := v == 0x7F
    carry := f.carry })

/-- The carry survives a decrement. -/
def dec8 (v : UInt8) (f : Flags) : UInt8 × Flags :=
  (v - 1, { Flags.ofResult (v - 1) with
    half := lowNibble v == 0
    parity := v == 0x80
    subtract := true
    carry := f.carry })

/-- The new accumulator and flags; a comparison leaves the accumulator alone. -/
def AccOp.apply (op : AccOp) (a operand : UInt8) (f : Flags) : UInt8 × Flags :=
  match op with
  | .add => add8 a operand false
  | .adc => add8 a operand f.carry
  | .sub => sub8 a operand false
  | .sbc => sub8 a operand f.carry
  | .and => and8 a operand
  | .xor => xor8 a operand
  | .or => or8 a operand
  | .cp => (a, compare8 a operand)

/-! ## Shifts and single bits -/

/-- The shifted byte, and the bit that left it. -/
def Shift.move (op : Shift) (v : UInt8) (carry : Bool) : UInt8 × Bool :=
  match op with
  | .rlc => (v <<< 1 ||| v >>> 7, bitOf v 7)
  | .rrc => (v >>> 1 ||| v <<< 7, bitOf v 0)
  | .rl => (v <<< 1 ||| bitIf carry 0, bitOf v 7)
  | .rr => (v >>> 1 ||| bitIf carry 7, bitOf v 0)
  | .sla => (v <<< 1, bitOf v 7)
  | .sra => (v >>> 1 ||| v &&& 0x80, bitOf v 0)
  -- Undocumented: a one comes in from the right.
  | .sll => (v <<< 1 ||| 1, bitOf v 7)
  | .srl => (v >>> 1, bitOf v 0)

def Shift.apply (op : Shift) (v : UInt8) (f : Flags) : UInt8 × Flags :=
  let (result, out) := op.move v f.carry
  (result, { Flags.ofLogic result with carry := out })

/-- The short rotations of the accumulator keep sign, zero and parity. -/
def Shift.applyToA (op : Shift) (a : UInt8) (f : Flags) : UInt8 × Flags :=
  let (result, out) := op.move a f.carry
  (result, { f.withXY result with half := false, subtract := false, carry := out })

/-- Testing bit `n` of `v`. The undocumented flags come from `xy`, which is not
always the byte under test. -/
def testBit (n v xy : UInt8) (f : Flags) : Flags :=
  let set := bitOf v n
  { sign := n == 7 && set
    zero := !set
    y := bitOf xy 5
    half := true
    x := bitOf xy 3
    parity := !set
    carry := f.carry }

/-! ## Sixteen bits -/

/-- Bits 11 to 0. -/
def low12 (w : UInt16) : Nat := w.toNat % 4096

/-- Sign, zero and parity survive a plain 16-bit sum. -/
def add16 (a b : UInt16) (f : Flags) : UInt16 × Flags :=
  let result := a + b
  (result, { f.withXY (highByte result) with
    half := 4095 < low12 a + low12 b
    subtract := false
    carry := 65535 < a.toNat + b.toNat })

def adc16 (a b : UInt16) (f : Flags) : UInt16 × Flags :=
  let result := a + b + (bitIf f.carry 0).toUInt16
  (result, { Flags.ofResult (highByte result) with
    zero := result == 0
    half := 4095 < low12 a + low12 b + f.carry.toNat
    parity := signFlipped (highByte a) (highByte b) (highByte result)
    carry := 65535 < a.toNat + b.toNat + f.carry.toNat })

def sbc16 (a b : UInt16) (f : Flags) : UInt16 × Flags :=
  let result := a - b - (bitIf f.carry 0).toUInt16
  (result, { Flags.ofResult (highByte result) with
    zero := result == 0
    half := low12 a < low12 b + f.carry.toNat
    parity := bitOf (highByte a) 7 != bitOf (highByte b) 7 &&
      bitOf (highByte a) 7 != bitOf (highByte result) 7
    subtract := true
    carry := a.toNat < b.toNat + f.carry.toNat })

/-! ## Decimal adjustment -/

/-- Corrects the accumulator after a sum or difference of two numbers written
with a decimal digit in each half. -/
def decimalAdjust (a : UInt8) (f : Flags) : UInt8 × Flags :=
  let low := lowNibble a
  let carry := f.carry || 0x99 < a
  let adjust := (if f.half || 9 < low then 0x06 else 0) ||| (if carry then 0x60 else 0)
  let result := if f.subtract then a - adjust else a + adjust
  (result, { Flags.ofLogic result with
    half := if f.subtract then f.half && low < 6 else 9 < low
    subtract := f.subtract
    carry := carry })

end AmstradCpc.Cpu
