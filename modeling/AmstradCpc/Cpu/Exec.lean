/-
What an instruction can do: read and change registers, run bus cycles, and
hold off interrupts for one instruction. The interrupt lines themselves are out
of its reach, so no instruction can look at them or lose one.
-/
import AmstradCpc.Bus
import AmstradCpc.Cpu.Registers
import AmstradCpc.Cpu.Instruction

namespace AmstradCpc.Cpu

/-- The part of the processor that instructions work on, and the bus. -/
structure Core (β : Type) where
  regs : Registers
  /-- Interrupts have just been enabled: none is taken before the next
  instruction has run. -/
  shadow : Bool
  bus : β

/-- A piece of an instruction. -/
abbrev Exec (β : Type) := StateM (Core β)

namespace Exec

variable {β : Type} [Bus β]

/-! ## Registers -/

@[inline] def registers : Exec β Registers := fun s => (s.regs, s)

@[inline] def modifyRegs (f : Registers → Registers) : Exec β Unit :=
  fun ⟨regs, shadow, bus⟩ => ((), ⟨f regs, shadow, bus⟩)

@[inline] def setShadow : Exec β Unit := fun ⟨regs, _, bus⟩ => ((), ⟨regs, true, bus⟩)

@[inline] def flags : Exec β Flags := return (← registers).f

@[inline] def setFlags (f : Flags) : Exec β Unit := modifyRegs fun r => { r with f }

@[inline] def setPC (w : UInt16) : Exec β Unit := modifyRegs fun r => { r with pc := w }

@[inline] def setWZ (w : UInt16) : Exec β Unit := modifyRegs fun r => { r with wz := w }

/-- A result for the accumulator with its flags. -/
@[inline] def setResult (result : UInt8 × Flags) : Exec β Unit :=
  modifyRegs fun r => { r with a := result.1, f := result.2 }

/-! ## Bus cycles -/

@[inline] def readByte (a : UInt16) : Exec β UInt8 :=
  fun ⟨regs, shadow, bus⟩ => let (v, bus) := Bus.read bus a; (v, ⟨regs, shadow, bus⟩)

@[inline] def writeByte (a : UInt16) (v : UInt8) : Exec β Unit :=
  fun ⟨regs, shadow, bus⟩ => ((), ⟨regs, shadow, Bus.write bus a v⟩)

@[inline] def inputByte (p : UInt16) : Exec β UInt8 :=
  fun ⟨regs, shadow, bus⟩ => let (v, bus) := Bus.input bus p; (v, ⟨regs, shadow, bus⟩)

@[inline] def outputByte (p : UInt16) (v : UInt8) : Exec β Unit :=
  fun ⟨regs, shadow, bus⟩ => ((), ⟨regs, shadow, Bus.output bus p v⟩)

@[inline] def acknowledge : Exec β UInt8 :=
  fun ⟨regs, shadow, bus⟩ => let (v, bus) := Bus.acknowledge bus; (v, ⟨regs, shadow, bus⟩)

/-- Fetches an opcode byte, which counts one refresh. -/
@[inline] def fetchOpcode : Exec β UInt8 :=
  fun ⟨regs, shadow, bus⟩ =>
    let (v, bus) := Bus.fetch bus regs.pc
    (v, ⟨{ regs with pc := regs.pc + 1 }.refresh, shadow, bus⟩)

/-- The next byte of the program, which is not an opcode. -/
def operandByte : Exec β UInt8 := do
  let pc := (← registers).pc
  let v ← readByte pc
  setPC (pc + 1)
  return v

/-- The next two bytes of the program, the low one first. -/
def operandWord : Exec β UInt16 := do
  let lo ← operandByte
  let hi ← operandByte
  return joinBytes hi lo

/-- A word in memory, the low byte first. -/
def readWord (a : UInt16) : Exec β UInt16 := do
  let lo ← readByte a
  let hi ← readByte (a + 1)
  return joinBytes hi lo

def writeWord (a w : UInt16) : Exec β Unit := do
  writeByte a (lowByte w)
  writeByte (a + 1) (highByte w)

/-- The stack grows downwards, the high byte going first. -/
def pushWord (w : UInt16) : Exec β Unit := do
  modifyRegs fun r => { r with sp := r.sp - 1 }
  writeByte (← registers).sp (highByte w)
  modifyRegs fun r => { r with sp := r.sp - 1 }
  writeByte (← registers).sp (lowByte w)

def popWord : Exec β UInt16 := do
  let w ← readWord (← registers).sp
  modifyRegs fun r => { r with sp := r.sp + 2 }
  return w

end Exec

/-! ## Operands -/

def Registers.index (r : Registers) : IndexReg → UInt16
  | .hl => r.hl
  | .ix => r.ix
  | .iy => r.iy

def Registers.setIndex (r : Registers) (idx : IndexReg) (w : UInt16) : Registers :=
  match idx with
  | .hl => r.setHL w
  | .ix => { r with ix := w }
  | .iy => { r with iy := w }

/-- An 8-bit register, where H and L are the halves of the index register. -/
def Registers.get8 (r : Registers) (idx : IndexReg) : Reg8 → UInt8
  | .b => r.b
  | .c => r.c
  | .d => r.d
  | .e => r.e
  | .h => highByte (r.index idx)
  | .l => lowByte (r.index idx)
  | .a => r.a

def Registers.set8 (r : Registers) (idx : IndexReg) (target : Reg8) (v : UInt8) : Registers :=
  match target with
  | .b => { r with b := v }
  | .c => { r with c := v }
  | .d => { r with d := v }
  | .e => { r with e := v }
  | .h => r.setIndex idx (joinBytes v (lowByte (r.index idx)))
  | .l => r.setIndex idx (joinBytes (highByte (r.index idx)) v)
  | .a => { r with a := v }

def Registers.getPair (r : Registers) (idx : IndexReg) : Pair → UInt16
  | .bc => r.bc
  | .de => r.de
  | .hl => r.index idx
  | .sp => r.sp

def Registers.setPair (r : Registers) (idx : IndexReg) (target : Pair) (w : UInt16) : Registers :=
  match target with
  | .bc => r.setBC w
  | .de => r.setDE w
  | .hl => r.setIndex idx w
  | .sp => { r with sp := w }

def Registers.getStackPair (r : Registers) (idx : IndexReg) : StackPair → UInt16
  | .bc => r.bc
  | .de => r.de
  | .hl => r.index idx
  | .af => r.af

def Registers.setStackPair (r : Registers) (idx : IndexReg) (target : StackPair) (w : UInt16) :
    Registers :=
  match target with
  | .bc => r.setBC w
  | .de => r.setDE w
  | .hl => r.setIndex idx w
  | .af => r.setAF w

def Registers.pointer (r : Registers) : Pointer → UInt16
  | .bc => r.bc
  | .de => r.de

/-- The address of the operand in memory. With an index register the program
gives a signed displacement, and the sum goes through the internal latch. -/
def operandAddress {β : Type} [Bus β] (idx : IndexReg) : Exec β UInt16 := do
  if idx = .hl then return (← Exec.registers).hl
  else
    let d ← Exec.operandByte
    let a := (← Exec.registers).index idx + signExtend d
    Exec.setWZ a
    return a

end AmstradCpc.Cpu
