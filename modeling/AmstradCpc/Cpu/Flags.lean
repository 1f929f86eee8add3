/-
The flag register. It is kept as eight separate flags, because every rule
speaks of flags one at a time; a program sees them packed into one byte.
-/
import AmstradCpc.Word

namespace AmstradCpc.Cpu

/-- The flags, from bit 7 of the packed byte down to bit 0. -/
structure Flags where
  /-- Bit 7 of the result. -/
  sign : Bool := false
  zero : Bool := false
  /-- Undocumented: usually bit 5 of the result. -/
  y : Bool := false
  /-- Carry out of bit 3, or out of bit 11 for 16-bit sums. -/
  half : Bool := false
  /-- Undocumented: usually bit 3 of the result. -/
  x : Bool := false
  /-- Even parity after logic, signed overflow after arithmetic. -/
  parity : Bool := false
  /-- The last sum was a difference. -/
  subtract : Bool := false
  carry : Bool := false
  deriving DecidableEq, Repr, Inhabited

namespace Flags

def toByte (f : Flags) : UInt8 :=
  bitIf f.sign 7 ||| bitIf f.zero 6 ||| bitIf f.y 5 ||| bitIf f.half 4 |||
    bitIf f.x 3 ||| bitIf f.parity 2 ||| bitIf f.subtract 1 ||| bitIf f.carry 0

def ofByte (v : UInt8) : Flags where
  sign := bitOf v 7
  zero := bitOf v 6
  y := bitOf v 5
  half := bitOf v 4
  x := bitOf v 3
  parity := bitOf v 2
  subtract := bitOf v 1
  carry := bitOf v 0

/-- Sign, zero and the two undocumented flags as a result sets them. -/
def ofResult (v : UInt8) : Flags where
  sign := bitOf v 7
  zero := v == 0
  y := bitOf v 5
  x := bitOf v 3

/-- The same flags with the undocumented two taken from `v`. -/
def withXY (f : Flags) (v : UInt8) : Flags := { f with y := bitOf v 5, x := bitOf v 3 }

theorem ofByte_toByte (f : Flags) : ofByte f.toByte = f := by
  obtain ⟨a, b, c, d, e, f, g, h⟩ := f
  revert a b c d e f g h
  decide

end Flags

/-- An even number of set bits. -/
def evenParity (v : UInt8) : Bool :=
  let v := v ^^^ (v >>> 4)
  let v := v ^^^ (v >>> 2)
  !bitOf (v ^^^ (v >>> 1)) 0

/-- What a logical result sets: sign, zero, parity and the undocumented flags. -/
def Flags.ofLogic (v : UInt8) : Flags := { Flags.ofResult v with parity := evenParity v }

end AmstradCpc.Cpu
