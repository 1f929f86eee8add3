/-
HL and an index register exchanged. `Swapped` compares two pieces of an instruction: what one does
when the two registers are exchanged, the other does when they are not. It goes through the pieces
that instructions are made of, so an instruction that has no operand in memory does under an index
prefix what it does without one on exchanged registers (`Swapped.execute`).
-/
import AmstradCpc.Cpu

namespace AmstradCpc

namespace Cpu

/-! ## Registers -/

namespace Registers

/-- HL and the register that plays its part exchanged. -/
def exchange (r : Registers) : IndexReg → Registers
  | .hl => r
  | .ix => { r with h := highByte r.ix, l := lowByte r.ix, ix := r.hl }
  | .iy => { r with h := highByte r.iy, l := lowByte r.iy, iy := r.hl }

variable (r : Registers) (idx : IndexReg)

theorem exchange_exchange : (r.exchange idx).exchange idx = r := by
  cases idx <;> simp [exchange, hl, highByte_joinBytes, lowByte_joinBytes, joinBytes_halves]

@[simp] theorem a_exchange : (r.exchange idx).a = r.a := by cases idx <;> rfl

@[simp] theorem f_exchange : (r.exchange idx).f = r.f := by cases idx <;> rfl

@[simp] theorem b_exchange : (r.exchange idx).b = r.b := by cases idx <;> rfl

@[simp] theorem sp_exchange : (r.exchange idx).sp = r.sp := by cases idx <;> rfl

@[simp] theorem pc_exchange : (r.exchange idx).pc = r.pc := by cases idx <;> rfl

@[simp] theorem pointer_exchange (p : Pointer) : (r.exchange idx).pointer p = r.pointer p := by
  cases idx <;> cases p <;> rfl

@[simp] theorem index_exchange : (r.exchange idx).index .hl = r.index idx := by
  cases idx <;> simp [exchange, index, hl, joinBytes_halves]

@[simp] theorem setIndex_exchange (w : UInt16) :
    (r.exchange idx).setIndex .hl w = (r.setIndex idx w).exchange idx := by
  cases idx <;> rfl

@[simp] theorem get8_exchange (source : Reg8) : (r.exchange idx).get8 .hl source = r.get8 idx source := by
  cases source <;> simp only [get8, index_exchange] <;> cases idx <;> rfl

@[simp] theorem set8_exchange (target : Reg8) (v : UInt8) :
    (r.exchange idx).set8 .hl target v = (r.set8 idx target v).exchange idx := by
  cases target <;> simp only [set8, index_exchange, setIndex_exchange] <;> cases idx <;> rfl

@[simp] theorem getPair_exchange (p : Pair) : (r.exchange idx).getPair .hl p = r.getPair idx p := by
  cases p <;> simp only [getPair, index_exchange] <;> cases idx <;> rfl

@[simp] theorem setPair_exchange (p : Pair) (w : UInt16) :
    (r.exchange idx).setPair .hl p w = (r.setPair idx p w).exchange idx := by
  cases p <;> simp only [setPair, setIndex_exchange] <;> cases idx <;> rfl

@[simp] theorem getStackPair_exchange (p : StackPair) :
    (r.exchange idx).getStackPair .hl p = r.getStackPair idx p := by
  cases p <;> simp only [getStackPair, index_exchange] <;> cases idx <;> rfl

@[simp] theorem setStackPair_exchange (p : StackPair) (w : UInt16) :
    (r.exchange idx).setStackPair .hl p w = (r.setStackPair idx p w).exchange idx := by
  cases p <;> simp only [setStackPair, setIndex_exchange] <;> cases idx <;> rfl

end Registers

variable {β : Type}

def Core.exchange (core : Core β) (idx : IndexReg) : Core β := { core with regs := core.regs.exchange idx }

theorem Core.exchange_exchange (core : Core β) (idx : IndexReg) : (core.exchange idx).exchange idx = core :=
  congrArg (fun regs => ({ core with regs := regs } : Core β)) (core.regs.exchange_exchange idx)

/-! ## Pieces of instructions -/

/-- What `work` does on exchanged registers, `work'` does on the registers as they are. -/
def Swapped {α : Type} (idx : IndexReg) (work work' : Exec β α) : Prop :=
  ∀ core, work (core.exchange idx) = ((work' core).1, (work' core).2.exchange idx)

namespace Swapped

variable {α γ : Type} {idx : IndexReg}

theorem pure (a : α) : Swapped idx (Pure.pure a : Exec β α) (Pure.pure a) := fun _ => rfl

theorem bind {work work' : Exec β α} {next next' : α → Exec β γ} (h : Swapped idx work work')
    (hnext : ∀ a, Swapped idx (next a) (next' a)) : Swapped idx (work >>= next) (work' >>= next') := by
  intro core
  show next (work (core.exchange idx)).1 (work (core.exchange idx)).2 = _
  rw [h core]
  exact hnext _ _

/-- The registers themselves are seen exchanged, so this is no case of `bind`. -/
theorem bind_registers {next next' : Registers → Exec β γ}
    (hnext : ∀ r : Registers, Swapped idx (next (r.exchange idx)) (next' r)) :
    Swapped idx (Exec.registers >>= next) (Exec.registers >>= next') := fun core => hnext core.regs core

theorem ite {c : Prop} [Decidable c] {work work' other other' : Exec β α} (h : Swapped idx work work')
    (hother : Swapped idx other other') :
    Swapped idx (if c then work else other) (if c then work' else other') := by
  split
  · exact h
  · exact hother

theorem modifyRegs {f g : Registers → Registers} (h : ∀ r, f (r.exchange idx) = (g r).exchange idx) :
    Swapped idx (Exec.modifyRegs f : Exec β Unit) (Exec.modifyRegs g) :=
  fun core => congrArg (fun regs => ((), (⟨regs, core.shadow, core.bus⟩ : Core β))) (h core.regs)

theorem setShadow : Swapped idx (Exec.setShadow : Exec β Unit) Exec.setShadow := fun _ => rfl

theorem flags : Swapped idx (Exec.flags : Exec β Flags) Exec.flags :=
  bind_registers fun r => by
    rw [r.f_exchange]
    exact pure _

theorem setFlags (f : Flags) : Swapped idx (Exec.setFlags f : Exec β Unit) (Exec.setFlags f) :=
  modifyRegs fun _ => by cases idx <;> rfl

theorem setPC (w : UInt16) : Swapped idx (Exec.setPC w : Exec β Unit) (Exec.setPC w) :=
  modifyRegs fun _ => by cases idx <;> rfl

theorem setWZ (w : UInt16) : Swapped idx (Exec.setWZ w : Exec β Unit) (Exec.setWZ w) :=
  modifyRegs fun _ => by cases idx <;> rfl

theorem setResult (result : UInt8 × Flags) :
    Swapped idx (Exec.setResult result : Exec β Unit) (Exec.setResult result) :=
  modifyRegs fun _ => by cases idx <;> rfl

theorem jumpRelative (d : UInt8) : Swapped idx (Cpu.jumpRelative d : Exec β Unit) (Cpu.jumpRelative d) :=
  modifyRegs fun _ => by cases idx <;> rfl

theorem jumpAbsolute (w : UInt16) : Swapped idx (Cpu.jumpAbsolute w : Exec β Unit) (Cpu.jumpAbsolute w) :=
  modifyRegs fun _ => by cases idx <;> rfl

section Bus

variable [Bus β]

/-- A bus cycle does not look at the registers. -/
theorem readByte (a : UInt16) : Swapped idx (Exec.readByte a : Exec β UInt8) (Exec.readByte a) := fun _ => rfl

theorem writeByte (a : UInt16) (v : UInt8) :
    Swapped idx (Exec.writeByte a v : Exec β Unit) (Exec.writeByte a v) := fun _ => rfl

theorem inputByte (p : UInt16) : Swapped idx (Exec.inputByte p : Exec β UInt8) (Exec.inputByte p) :=
  fun _ => rfl

theorem outputByte (p : UInt16) (v : UInt8) :
    Swapped idx (Exec.outputByte p v : Exec β Unit) (Exec.outputByte p v) := fun _ => rfl

theorem operandByte : Swapped idx (Exec.operandByte : Exec β UInt8) Exec.operandByte :=
  bind_registers fun r => by
    rw [r.pc_exchange]
    exact (readByte _).bind fun _ => (setPC _).bind fun _ => pure _

theorem operandWord : Swapped idx (Exec.operandWord : Exec β UInt16) Exec.operandWord :=
  operandByte.bind fun _ => operandByte.bind fun _ => pure _

theorem readWord (a : UInt16) : Swapped idx (Exec.readWord a : Exec β UInt16) (Exec.readWord a) :=
  (readByte _).bind fun _ => (readByte _).bind fun _ => pure _

theorem writeWord (a w : UInt16) : Swapped idx (Exec.writeWord a w : Exec β Unit) (Exec.writeWord a w) :=
  (writeByte _ _).bind fun _ => writeByte _ _

theorem pushWord (w : UInt16) : Swapped idx (Exec.pushWord w : Exec β Unit) (Exec.pushWord w) := by
  have hdown : Swapped idx (Exec.modifyRegs fun r => { r with sp := r.sp - 1 } : Exec β Unit)
      (Exec.modifyRegs fun r => { r with sp := r.sp - 1 }) := modifyRegs fun _ => by cases idx <;> rfl
  refine hdown.bind fun _ => bind_registers fun r => ?_
  rw [r.sp_exchange]
  refine (writeByte _ _).bind fun _ => hdown.bind fun _ => bind_registers fun r => ?_
  rw [r.sp_exchange]
  exact writeByte _ _

theorem popWord : Swapped idx (Exec.popWord : Exec β UInt16) Exec.popWord :=
  bind_registers fun r => by
    rw [r.sp_exchange]
    exact (readWord _).bind fun _ => (modifyRegs fun _ => by cases idx <;> rfl).bind fun _ => pure _

attribute [simp] pure readByte writeByte inputByte outputByte setShadow flags setFlags setPC setWZ setResult
  jumpRelative jumpAbsolute operandByte operandWord readWord writeWord pushWord popWord

/-! ## Instructions -/

theorem modifyOperand (f : UInt8 → Flags → UInt8 × Flags) (target : Reg8) :
    Swapped idx (Cpu.modifyOperand .hl f (.reg target) : Exec β Nat) (Cpu.modifyOperand idx f (.reg target)) :=
  bind_registers fun r => by
    simp only [Registers.get8_exchange, Registers.f_exchange]
    exact (modifyRegs fun r => by simp only [Registers.set8_exchange]; cases idx <;> rfl).bind fun _ => pure _

theorem readOperand (source : Reg8) :
    Swapped idx (Cpu.readOperand .hl (.reg source) : Exec β (UInt8 × Nat)) (Cpu.readOperand idx (.reg source)) :=
  bind_registers fun r => by
    rw [r.get8_exchange]
    exact pure _

end Bus

end Swapped

/-- The instruction has an operand in memory that HL points to. -/
def Instr.hasMemoryOperand : Instr → Bool
  | .inc .mem | .dec .mem | .set .mem | .load _ | .store _ | .accumulate _ .mem => true
  | _ => false

/-- An exchange with DE or with the alternate registers always takes the plain HL. -/
def Instr.exchangesHL : Instr → Bool
  | .exchangeDEHL | .exchangeGeneral => true
  | _ => false

theorem Swapped.execute [Bus β] (idx : IndexReg) {instr : Instr} (hmem : instr.hasMemoryOperand = false)
    (hexchange : instr.exchangesHL = false) :
    Swapped idx (Cpu.execute .hl instr : Exec β Nat) (Cpu.execute idx instr) := by
  cases instr with
  | exchangeDEHL | exchangeGeneral => simp [Instr.exchangesHL] at hexchange
  | load | store => simp [Instr.hasMemoryOperand] at hmem
  | inc o =>
    cases o with
    | mem => simp [Instr.hasMemoryOperand] at hmem
    | reg target => exact modifyOperand inc8 target
  | dec o =>
    cases o with
    | mem => simp [Instr.hasMemoryOperand] at hmem
    | reg target => exact modifyOperand dec8 target
  | set o =>
    cases o with
    | mem => simp [Instr.hasMemoryOperand] at hmem
    | reg target =>
      exact operandByte.bind fun _ => (modifyRegs fun r => r.set8_exchange idx _ _).bind fun _ => pure _
  | accumulate op o =>
    cases o with
    | mem => simp [Instr.hasMemoryOperand] at hmem
    | reg source =>
      refine (readOperand source).bind fun _ => bind_registers fun r => ?_
      rw [r.a_exchange, r.f_exchange]
      exact (setResult _).bind fun _ => pure _
  | countAndJump =>
    refine operandByte.bind fun _ => (modifyRegs fun _ => by cases idx <;> rfl).bind fun _ =>
      bind_registers fun r => ?_
    rw [r.b_exchange]
    exact ite (pure _) ((jumpRelative _).bind fun _ => pure _)
  | jumpBy c =>
    cases c with
    | none => exact operandByte.bind fun _ => (jumpRelative _).bind fun _ => pure _
    | some c =>
      exact operandByte.bind fun _ => flags.bind fun _ => ite ((jumpRelative _).bind fun _ => pure _) (pure _)
  | jumpTo c =>
    cases c with
    | none => exact operandWord.bind fun _ => (jumpAbsolute _).bind fun _ => pure _
    | some c =>
      exact operandWord.bind fun _ => (setWZ _).bind fun _ => flags.bind fun _ =>
        ite ((setPC _).bind fun _ => pure _) (pure _)
  | call c =>
    have hcall {next : Exec β Nat} (w : UInt16) (hnext : Swapped idx next next) :
        Swapped idx (Exec.registers >>= fun r => Exec.pushWord r.pc >>= fun _ => next)
          (Exec.registers >>= fun r => Exec.pushWord r.pc >>= fun _ => next) :=
      bind_registers fun r => r.pc_exchange idx ▸ (pushWord _).bind fun _ => hnext
    cases c with
    | none => exact operandWord.bind fun w => hcall w ((jumpAbsolute _).bind fun _ => pure _)
    | some c =>
      exact operandWord.bind fun w => (setWZ _).bind fun _ => flags.bind fun _ =>
        ite (hcall w ((setPC _).bind fun _ => pure _)) (pure _)
  | _ =>
    -- No operand in memory and no plain HL: the rules take the instruction apart, and what they leave
    -- are changes of the registers, each of which the exchange can be drawn through.
    simp only [Cpu.execute]
    repeat' first
      | with_reducible refine Swapped.bind_registers fun _ => ?_
      | with_reducible refine Swapped.bind ?_ fun _ => ?_
      | with_reducible refine Swapped.ite ?_ ?_
      | (simp; done)
      | (refine Swapped.modifyRegs fun _ => ?_; simp; done)
      | (refine Swapped.modifyRegs fun _ => ?_; cases idx <;> rfl)
      | (refine Swapped.modifyRegs fun _ => ?_
         simp only [Registers.index_exchange, Registers.setIndex_exchange, Registers.getPair_exchange]
         cases idx <;> rfl)

end Cpu

end AmstradCpc
