/-
Instructions are made of a few kinds of pieces: bus cycles and changes of registers. So a relation
between what is before and after holds of an instruction once it holds of these (`Keeps`), and
which relation that is does not matter to the proof. Only HALT and EI are made of something else:
the one halts the processor and the other holds off interrupts.
-/
import AmstradCpc.Proofs.Board.Reached

namespace AmstradCpc

namespace Cpu

variable {β : Type} [Bus β] {α γ : Type}

/-- A relation between registers and bus before and after that allows bus cycles and changes of all
registers, if only the processor does not halt. -/
class Allowing (R : Core β → Core β → Prop) : Prop where
  refl (core : Core β) : R core core
  trans {core core' core'' : Core β} : R core core' → R core' core'' → R core core''
  cycle (cycle : Cycle) (core : Core β) : R core { core with bus := (cycle.run core.bus).2 }
  change {f : Registers → Registers} (h : ∀ r, (f r).halted = r.halted) (core : Core β) :
    R core { core with regs := f core.regs }

/-- What is before and after a piece of an instruction is in the relation. -/
def Keeps (R : Core β → Core β → Prop) (work : Exec β α) : Prop := ∀ core, R core (work core).2

namespace Registers

variable (r : Registers) (idx : IndexReg) (w : UInt16)

@[simp] theorem halted_setIndex : (r.setIndex idx w).halted = r.halted := by cases idx <;> rfl

@[simp] theorem halted_set8 (target : Reg8) (v : UInt8) : (r.set8 idx target v).halted = r.halted := by
  cases target <;> simp [set8]

@[simp] theorem halted_setPair (p : Pair) : (r.setPair idx p w).halted = r.halted := by
  cases p <;> simp [setPair, setBC, setDE]

@[simp] theorem halted_setStackPair (p : StackPair) : (r.setStackPair idx p w).halted = r.halted := by
  cases p <;> simp [setStackPair, setBC, setDE, setAF]

end Registers

namespace Keeps

variable {R : Core β → Core β → Prop}

omit [Bus β] in
theorem ite {c : Prop} [Decidable c] {work other : Exec β α} (h : Keeps R work) (hother : Keeps R other) :
    Keeps R (if c then work else other) := by
  split
  · exact h
  · exact hother

variable [Allowing R]

/-! ## Pieces of instructions -/

theorem bind {work : Exec β α} {next : α → Exec β γ} (h : Keeps R work) (hnext : ∀ a, Keeps R (next a)) :
    Keeps R (work >>= next) :=
  fun core => Allowing.trans (h core) (hnext (work core).1 (work core).2)

theorem pure (a : α) : Keeps R (Pure.pure a : Exec β α) := Allowing.refl

theorem registers : Keeps R (Exec.registers : Exec β Registers) := Allowing.refl

theorem modifyRegs {f : Registers → Registers} (h : ∀ r, (f r).halted = r.halted) :
    Keeps R (Exec.modifyRegs f : Exec β Unit) := Allowing.change h

theorem flags : Keeps R (Exec.flags : Exec β Flags) := registers.bind fun _ => pure _

theorem setFlags (f : Flags) : Keeps R (Exec.setFlags f : Exec β Unit) := modifyRegs fun _ => rfl

theorem setPC (w : UInt16) : Keeps R (Exec.setPC w : Exec β Unit) := modifyRegs fun _ => rfl

theorem setWZ (w : UInt16) : Keeps R (Exec.setWZ w : Exec β Unit) := modifyRegs fun _ => rfl

theorem setResult (result : UInt8 × Flags) : Keeps R (Exec.setResult result : Exec β Unit) :=
  modifyRegs fun _ => rfl

theorem jumpRelative (d : UInt8) : Keeps R (Cpu.jumpRelative d : Exec β Unit) := modifyRegs fun _ => rfl

theorem jumpAbsolute (w : UInt16) : Keeps R (Cpu.jumpAbsolute w : Exec β Unit) := modifyRegs fun _ => rfl

attribute [simp] pure registers flags setFlags setPC setWZ setResult jumpRelative jumpAbsolute

theorem readByte (a : UInt16) : Keeps R (Exec.readByte a : Exec β UInt8) := Allowing.cycle (.read a)

theorem writeByte (a : UInt16) (v : UInt8) : Keeps R (Exec.writeByte a v : Exec β Unit) :=
  Allowing.cycle (.write a v)

theorem inputByte (p : UInt16) : Keeps R (Exec.inputByte p : Exec β UInt8) := Allowing.cycle (.input p)

theorem outputByte (p : UInt16) (v : UInt8) : Keeps R (Exec.outputByte p v : Exec β Unit) :=
  Allowing.cycle (.output p v)

theorem acknowledge : Keeps R (Exec.acknowledge : Exec β UInt8) := Allowing.cycle .acknowledge

theorem fetchOpcode : Keeps R (Exec.fetchOpcode : Exec β UInt8) := by
  intro core
  have hchange (r : Registers) : { r with pc := r.pc + 1 }.refresh.halted = r.halted := rfl
  let fetched : Core β := { core with bus := ((Cycle.fetch core.regs.pc).run core.bus).2 }
  have hfetched : R core fetched := Allowing.cycle (.fetch core.regs.pc) core
  exact Allowing.trans hfetched (Allowing.change hchange fetched)

theorem operandByte : Keeps R (Exec.operandByte : Exec β UInt8) :=
  registers.bind fun _ => (readByte _).bind fun _ => (setPC _).bind fun _ => pure _

theorem operandWord : Keeps R (Exec.operandWord : Exec β UInt16) :=
  operandByte.bind fun _ => operandByte.bind fun _ => pure _

theorem readWord (a : UInt16) : Keeps R (Exec.readWord a : Exec β UInt16) :=
  (readByte _).bind fun _ => (readByte _).bind fun _ => pure _

theorem writeWord (a w : UInt16) : Keeps R (Exec.writeWord a w : Exec β Unit) :=
  (writeByte _ _).bind fun _ => writeByte _ _

theorem pushWord (w : UInt16) : Keeps R (Exec.pushWord w : Exec β Unit) :=
  (modifyRegs fun _ => by rfl).bind fun _ => registers.bind fun _ => (writeByte _ _).bind fun _ =>
    (modifyRegs fun _ => by rfl).bind fun _ => registers.bind fun _ => writeByte _ _

theorem popWord : Keeps R (Exec.popWord : Exec β UInt16) :=
  registers.bind fun _ => (readWord _).bind fun _ => (modifyRegs fun _ => by rfl).bind fun _ => pure _

theorem operandAddress (idx : IndexReg) : Keeps R (Cpu.operandAddress idx : Exec β UInt16) :=
  ite (registers.bind fun _ => pure _)
    (operandByte.bind fun _ => registers.bind fun _ => (setWZ _).bind fun _ => pure _)

attribute [simp] readByte writeByte inputByte outputByte fetchOpcode operandByte operandWord readWord
  writeWord pushWord popWord operandAddress

/-! ## Instructions -/

theorem modifyOperand (idx : IndexReg) (f : UInt8 → Flags → UInt8 × Flags) (operand : Operand) :
    Keeps R (Cpu.modifyOperand idx f operand : Exec β Nat) := by
  cases operand with
  | mem =>
    exact (operandAddress idx).bind fun _ => (readByte _).bind fun _ => flags.bind fun _ =>
      (writeByte _ _).bind fun _ => (setFlags _).bind fun _ => pure _
  | reg target =>
    exact registers.bind fun _ =>
      (modifyRegs fun r => by exact r.halted_set8 idx target _).bind fun _ => pure _

theorem readOperand (idx : IndexReg) (operand : Operand) :
    Keeps R (Cpu.readOperand idx operand : Exec β (UInt8 × Nat)) := by
  cases operand with
  | mem => exact (operandAddress idx).bind fun _ => (readByte _).bind fun _ => pure _
  | reg source => exact registers.bind fun _ => pure _

attribute [simp] modifyOperand readOperand

theorem execute (idx : IndexReg) {instr : Instr} (hhalt : instr ≠ .halt)
    (henable : instr ≠ .enableInterrupts) : Keeps R (Cpu.execute idx instr : Exec β Nat) := by
  unfold Cpu.execute
  split <;> repeat' first
    | contradiction
    | with_reducible refine bind ?_ fun _ => ?_
    | with_reducible refine ite ?_ ?_
    | (simp; done)
    | (refine modifyRegs fun _ => ?_; first | rfl | simp)

theorem executeBits (opcode : UInt8) : Keeps R (Cpu.executeBits opcode : Exec β Nat) := by
  unfold Cpu.executeBits
  split
  · refine registers.bind fun _ => (readByte _).bind fun _ => registers.bind fun _ =>
      (setFlags _).bind fun _ => ?_
    split
    · exact (writeByte _ _).bind fun _ => pure _
    · exact pure _
  · refine registers.bind fun _ => (setFlags _).bind fun _ => ?_
    split
    · exact (modifyRegs fun r => r.halted_set8 .hl _ _).bind fun _ => pure _
    · exact pure _

theorem executeIndexedBits (idx : IndexReg) : Keeps R (Cpu.executeIndexedBits idx : Exec β Nat) := by
  unfold Cpu.executeIndexedBits
  refine (operandAddress _).bind fun _ => operandByte.bind fun _ => (readByte _).bind fun _ =>
    flags.bind fun _ => (setFlags _).bind fun _ => ?_
  split
  · refine (writeByte _ _).bind fun _ => ?_
    split
    · exact (modifyRegs fun r => r.halted_set8 .hl _ _).bind fun _ => pure _
    · exact pure _
  · exact pure _

theorem blockItem (op : BlockOp) (down : Bool) : Keeps R (Cpu.blockItem op down : Exec β Bool) := by
  unfold Cpu.blockItem
  refine registers.bind fun _ => ?_
  cases op with
  | copy =>
    exact (readByte _).bind fun _ => (writeByte _ _).bind fun _ =>
      (modifyRegs fun _ => by rfl).bind fun _ => pure _
  | compare => exact (readByte _).bind fun _ => (modifyRegs fun _ => by rfl).bind fun _ => pure _
  | input =>
    exact (inputByte _).bind fun _ => (writeByte _ _).bind fun _ =>
      (modifyRegs fun _ => by rfl).bind fun _ => pure _
  | output =>
    exact (readByte _).bind fun _ => (outputByte _ _).bind fun _ =>
      (modifyRegs fun _ => by rfl).bind fun _ => pure _

theorem executeBlock (op : BlockOp) (down repeats : Bool) :
    Keeps R (Cpu.executeBlock op down repeats : Exec β Nat) :=
  (blockItem op down).bind fun _ =>
    ite ((modifyRegs fun _ => by rfl).bind fun _ =>
      ite ((modifyRegs fun _ => by rfl).bind fun _ => pure _) (pure _)) (pure _)

theorem executeRotateDigits (right : Bool) : Keeps R (Cpu.executeRotateDigits right : Exec β Nat) :=
  registers.bind fun _ => (readByte _).bind fun _ => (writeByte _ _).bind fun _ =>
    (modifyRegs fun _ => by rfl).bind fun _ => pure _

attribute [simp] executeBlock executeRotateDigits

theorem executeExtended (instr : Extended) : Keeps R (Cpu.executeExtended instr : Exec β Nat) := by
  unfold Cpu.executeExtended
  split <;> repeat' first
    | with_reducible refine bind ?_ fun _ => ?_
    | with_reducible refine ite ?_ ?_
    | (simp; done)
    | split
    | (refine modifyRegs fun _ => ?_; first | rfl | simp)

/-- Every opcode but HALT and EI. -/
theorem executeOpcode (idx : IndexReg) {opcode : Opcode} (hhalt : opcode ≠ .plain .halt)
    (henable : opcode ≠ .plain .enableInterrupts) : Keeps R (Cpu.executeOpcode idx opcode : Exec β Nat) := by
  cases opcode with
  | plain instr => exact execute idx (fun h => hhalt (h ▸ rfl)) fun h => henable (h ▸ rfl)
  | bits => exact ite (fetchOpcode.bind fun _ => executeBits _) (executeIndexedBits idx)
  | extended => exact fetchOpcode.bind fun _ => executeExtended _
  | index _ => exact pure _

end Keeps

end Cpu

end AmstradCpc
