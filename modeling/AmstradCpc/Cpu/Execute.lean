/-
What the instructions of the first table do. `execute` answers the T-states
that an instruction takes, the fetch of its opcode included; an index prefix is
charged by whoever met it.
-/
import AmstradCpc.Cpu.Exec

namespace AmstradCpc.Cpu

variable {β : Type} [Bus β]

open Exec

/-- What an operand at a displacement costs more than one at HL. -/
def displacementCost (idx : IndexReg) : Nat := if idx = .hl then 0 else 8

def jumpRelative (d : UInt8) : Exec β Unit :=
  modifyRegs fun r => let pc := r.pc + signExtend d; { r with pc, wz := pc }

def jumpAbsolute (w : UInt16) : Exec β Unit := modifyRegs fun r => { r with pc := w, wz := w }

/-- Replaces an operand by a function of it and of the flags. -/
def modifyOperand (idx : IndexReg) (f : UInt8 → Flags → UInt8 × Flags) : Operand → Exec β Nat
  | .mem => do
    let a ← operandAddress idx
    let (v, fl) := f (← readByte a) (← flags)
    writeByte a v
    setFlags fl
    return 11 + displacementCost idx
  | .reg target => do
    let r ← registers
    let (v, fl) := f (r.get8 idx target) r.f
    modifyRegs fun r => { r.set8 idx target v with f := fl }
    return 4

/-- The operand of an accumulator operation and what the operation costs. -/
def readOperand (idx : IndexReg) : Operand → Exec β (UInt8 × Nat)
  | .mem => do
    let a ← operandAddress idx
    return (← readByte a, 7 + displacementCost idx)
  | .reg source => return ((← registers).get8 idx source, 4)

def execute (idx : IndexReg) : Instr → Exec β Nat
  | .nop => return 4
  | .exchangeAF => do modifyRegs (·.exchangeAF); return 4
  | .exchangeGeneral => do modifyRegs (·.exchangeGeneral); return 4
  | .exchangeDEHL => do modifyRegs fun r => (r.setDE r.hl).setHL r.de; return 4
  | .exchangeStack => do
    let r ← registers
    let w ← readWord r.sp
    writeWord r.sp (r.index idx)
    modifyRegs fun r => { r.setIndex idx w with wz := w }
    return 19
  | .countAndJump => do
    let d ← operandByte
    modifyRegs fun r => { r with b := r.b - 1 }
    if (← registers).b = 0 then return 8
    jumpRelative d
    return 13
  | .jumpBy none => do
    let d ← operandByte
    jumpRelative d
    return 12
  | .jumpBy (some c) => do
    let d ← operandByte
    if c.holds (← flags) then
      jumpRelative d
      return 12
    else return 7
  | .jumpTo none => do
    let w ← operandWord
    jumpAbsolute w
    return 10
  | .jumpTo (some c) => do
    let w ← operandWord
    setWZ w
    if c.holds (← flags) then setPC w
    return 10
  | .jumpIndex => do modifyRegs fun r => { r with pc := r.index idx }; return 4
  | .call none => do
    let w ← operandWord
    pushWord (← registers).pc
    jumpAbsolute w
    return 17
  | .call (some c) => do
    let w ← operandWord
    setWZ w
    if c.holds (← flags) then
      pushWord (← registers).pc
      setPC w
      return 17
    else return 10
  | .ret => do
    let w ← popWord
    jumpAbsolute w
    return 10
  | .retIf c => do
    if c.holds (← flags) then
      let w ← popWord
      jumpAbsolute w
      return 11
    else return 5
  | .restart target => do
    pushWord (← registers).pc
    jumpAbsolute target
    return 11
  | .push p => do
    pushWord ((← registers).getStackPair idx p)
    return 11
  | .pop p => do
    let w ← popWord
    modifyRegs fun r => r.setStackPair idx p w
    return 10
  | .setPair p => do
    let w ← operandWord
    modifyRegs fun r => r.setPair idx p w
    return 10
  | .incPair p => do
    modifyRegs fun r => r.setPair idx p (r.getPair idx p + 1)
    return 6
  | .decPair p => do
    modifyRegs fun r => r.setPair idx p (r.getPair idx p - 1)
    return 6
  | .addPair p => do
    modifyRegs fun r =>
      let (w, f) := add16 (r.index idx) (r.getPair idx p) r.f
      { r.setIndex idx w with wz := r.index idx + 1, f }
    return 11
  | .loadSP => do modifyRegs fun r => { r with sp := r.index idx }; return 6
  | .storeIndex => do
    let a ← operandWord
    writeWord a ((← registers).index idx)
    setWZ (a + 1)
    return 16
  | .loadIndex => do
    let a ← operandWord
    let w ← readWord a
    modifyRegs fun r => { r.setIndex idx w with wz := a + 1 }
    return 16
  | .storeAVia p => do
    let r ← registers
    writeByte (r.pointer p) r.a
    setWZ (joinBytes r.a (lowByte (r.pointer p + 1)))
    return 7
  | .loadAVia p => do
    let a := (← registers).pointer p
    let v ← readByte a
    modifyRegs fun r => { r with a := v, wz := a + 1 }
    return 7
  | .storeA => do
    let a ← operandWord
    let v := (← registers).a
    writeByte a v
    setWZ (joinBytes v (lowByte (a + 1)))
    return 13
  | .loadA => do
    let a ← operandWord
    let v ← readByte a
    modifyRegs fun r => { r with a := v, wz := a + 1 }
    return 13
  | .inc o => modifyOperand idx inc8 o
  | .dec o => modifyOperand idx dec8 o
  | .set (.reg target) => do
    let v ← operandByte
    modifyRegs fun r => r.set8 idx target v
    return 7
  | .set .mem => do
    let a ← operandAddress idx
    let v ← operandByte
    writeByte a v
    return if idx = .hl then 10 else 15
  | .copy target source => do
    modifyRegs fun r => r.set8 idx target (r.get8 idx source)
    return 4
  | .load target => do
    -- Beside an operand in memory, H and L are always the plain registers.
    let a ← operandAddress idx
    let v ← readByte a
    modifyRegs fun r => r.set8 .hl target v
    return 7 + displacementCost idx
  | .store source => do
    let a ← operandAddress idx
    writeByte a ((← registers).get8 .hl source)
    return 7 + displacementCost idx
  | .accumulate op o => do
    let (v, cost) ← readOperand idx o
    let r ← registers
    setResult (op.apply r.a v r.f)
    return cost
  | .accumulateByte op => do
    let v ← operandByte
    let r ← registers
    setResult (op.apply r.a v r.f)
    return 7
  | .rotateA op => do
    let r ← registers
    setResult (op.applyToA r.a r.f)
    return 4
  | .adjustA => do
    let r ← registers
    setResult (decimalAdjust r.a r.f)
    return 4
  | .complementA => do
    let r ← registers
    setResult (~~~r.a, { r.f.withXY (~~~r.a) with half := true, subtract := true })
    return 4
  | .setCarry => do
    let r ← registers
    setFlags { r.f.withXY r.a with half := false, subtract := false, carry := true }
    return 4
  | .flipCarry => do
    let r ← registers
    setFlags { r.f.withXY r.a with half := r.f.carry, subtract := false, carry := !r.f.carry }
    return 4
  | .halt => do modifyRegs fun r => { r with halted := true }; return 4
  | .output => do
    let n ← operandByte
    let a := (← registers).a
    outputByte (joinBytes a n) a
    setWZ (joinBytes a (n + 1))
    return 11
  | .input => do
    let n ← operandByte
    let port := joinBytes (← registers).a n
    let v ← inputByte port
    modifyRegs fun r => { r with a := v, wz := port + 1 }
    return 11
  | .disableInterrupts => do
    modifyRegs fun r => { r with iff1 := false, iff2 := false }
    return 4
  | .enableInterrupts => do
    modifyRegs fun r => { r with iff1 := true, iff2 := true }
    setShadow
    return 4

end AmstradCpc.Cpu
