/-
Shifts, rotations and single bits: the instructions after `CB`. After an index
prefix the operand is always in memory, the displacement comes before the
opcode byte, and the result also goes to the register that the opcode names.
-/
import AmstradCpc.Cpu.Exec

namespace AmstradCpc.Cpu

variable {β : Type} [Bus β]

open Exec

/-- The byte that replaces the operand, if the operation has a result, and the
new flags. `xy` is where a test takes the undocumented flags from. -/
def BitOp.apply (op : BitOp) (v xy : UInt8) (f : Flags) : Option UInt8 × Flags :=
  match op with
  | .shift s => let (result, f) := s.apply v f; (some result, f)
  | .test n => (none, testBit n v xy f)
  | .reset n => (some (v &&& ~~~(1 <<< n)), f)
  | .set n => (some (v ||| 1 <<< n), f)

/-- The instruction of an opcode byte after a plain `CB`. -/
def executeBits (opcode : UInt8) : Exec β Nat := do
  let op := BitOp.decode opcode
  match Operand.ofBits (lowBits opcode) with
  | .mem =>
    let a := (← registers).hl
    let v ← readByte a
    let r ← registers
    let (result, f) := op.apply v (highByte r.wz) r.f
    setFlags f
    match result with
    | some v =>
      writeByte a v
      return 15
    | none => return 12
  | .reg target =>
    let r ← registers
    let v := r.get8 .hl target
    let (result, f) := op.apply v v r.f
    setFlags f
    if let some v := result then modifyRegs fun r => r.set8 .hl target v
    return 8

/-- What follows an index prefix and `CB`: displacement, then opcode byte. -/
def executeIndexedBits (idx : IndexReg) : Exec β Nat := do
  let a ← operandAddress idx
  let opcode ← operandByte
  let v ← readByte a
  let (result, f) := (BitOp.decode opcode).apply v (highByte a) (← flags)
  setFlags f
  match result with
  | some v =>
    writeByte a v
    if let .reg target := Operand.ofBits (lowBits opcode) then
      modifyRegs fun r => r.set8 .hl target v
    return 19
  | none => return 16

end AmstradCpc.Cpu
