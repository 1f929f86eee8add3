/-
The processor does nothing to the rest of the machine but run bus cycles. So whatever cycles keep
true of a bus holds however long the processor works with it, and nothing need be known of the
program.
-/
import AmstradCpc.Proofs.Cpu.Pieces

namespace AmstradCpc

namespace Cpu

variable {β : Type} [Bus β] {α γ : Type}

/-- A piece of an instruction leaves the bus as some row of cycles does. -/
def OnlyCycles (work : Exec β α) : Prop := ∀ core, ∃ cycles, (work core).2.bus = Cycle.runAll core.bus cycles

/-- The bus is what a row of cycles has made of it. -/
def RunsCycles (core core' : Core β) : Prop := ∃ cycles, core'.bus = Cycle.runAll core.bus cycles

instance : Allowing (RunsCycles : Core β → Core β → Prop) where
  refl _ := ⟨[], rfl⟩
  trans := by
    rintro _ _ _ ⟨cycles, hcycles⟩ ⟨more, hmore⟩
    exact ⟨cycles ++ more, by rw [hmore, hcycles, Cycle.runAll_append]⟩
  cycle cycle _ := ⟨[cycle], rfl⟩
  change _ _ := ⟨[], rfl⟩

namespace OnlyCycles

theorem of_keeps {work : Exec β α} (h : Keeps RunsCycles work) : OnlyCycles work := h

theorem bind {work : Exec β α} {next : α → Exec β γ} (h : OnlyCycles work)
    (hnext : ∀ a, OnlyCycles (next a)) : OnlyCycles (work >>= next) := Keeps.bind (R := RunsCycles) h hnext

theorem pure (a : α) : OnlyCycles (Pure.pure a : Exec β α) := of_keeps (Keeps.pure a)

/-- No change of registers reaches the bus, not even one that halts the processor. -/
theorem modifyRegs (f : Registers → Registers) : OnlyCycles (Exec.modifyRegs f : Exec β Unit) :=
  fun _ => ⟨[], rfl⟩

theorem setShadow : OnlyCycles (Exec.setShadow : Exec β Unit) := fun _ => ⟨[], rfl⟩

/-! ## Steps -/

theorem executeOpcode (idx : IndexReg) (opcode : Opcode) :
    OnlyCycles (Cpu.executeOpcode idx opcode : Exec β Nat) := by
  by_cases hhalt : opcode = .plain .halt
  · rw [hhalt]
    exact (modifyRegs _).bind fun _ => pure _
  by_cases henable : opcode = .plain .enableInterrupts
  · rw [henable]
    exact (modifyRegs _).bind fun _ => setShadow.bind fun _ => pure _
  exact of_keeps (Keeps.executeOpcode idx hhalt henable)

theorem executeIndexed (idx : IndexReg) : OnlyCycles (Cpu.executeIndexed idx : Exec β Nat) := by
  refine (of_keeps Keeps.registers).bind fun _ => (of_keeps (Keeps.readByte _)).bind fun _ => ?_
  exact Keeps.ite (R := RunsCycles) (Keeps.pure _)
    (Keeps.fetchOpcode.bind fun _ => (executeOpcode idx _).bind fun _ => pure _)

theorem executeNext : OnlyCycles (Cpu.executeNext : Exec β Nat) := by
  refine (of_keeps Keeps.fetchOpcode).bind fun opcode => ?_
  split
  · exact executeIndexed _
  · exact executeOpcode _ _

theorem acceptNmi : OnlyCycles (Cpu.acceptNmi : Exec β Nat) :=
  (modifyRegs _).bind fun _ => of_keeps (Keeps.registers.bind fun _ => (Keeps.pushWord _).bind fun _ =>
    (Keeps.jumpAbsolute _).bind fun _ => Keeps.pure _)

theorem acceptInt : OnlyCycles (Cpu.acceptInt : Exec β Nat) :=
  (modifyRegs _).bind fun _ => of_keeps (Keeps.acknowledge.bind fun _ => Keeps.registers.bind fun _ =>
    (Keeps.pushWord _).bind fun _ => Keeps.registers.bind fun _ =>
      Keeps.ite ((Keeps.readWord _).bind fun _ => (Keeps.jumpAbsolute _).bind fun _ => Keeps.pure _)
        ((Keeps.jumpAbsolute _).bind fun _ => Keeps.pure _))

theorem idle : OnlyCycles (Cpu.idle : Exec β Nat) := (modifyRegs _).bind fun _ => pure _

theorem spend {work : Exec β Nat} (h : OnlyCycles work) (cpu : Cpu) (bus : β) (shadow : Bool) :
    ∃ cycles, (Cpu.spend cpu bus shadow work).2.2 = Cycle.runAll bus cycles :=
  h ⟨cpu.regs, shadow, bus⟩

end OnlyCycles

/-- **A step runs bus cycles and does nothing else to the machine**, be it an instruction or the
acceptance of an interrupt. -/
theorem step_onlyCycles (cpu : Cpu) (bus : β) : ∃ cycles, (cpu.step bus).2.2 = Cycle.runAll bus cycles := by
  unfold step
  split
  · exact OnlyCycles.acceptNmi.spend _ bus _
  · split
    · exact OnlyCycles.acceptInt.spend _ bus _
    · split
      · exact OnlyCycles.idle.spend cpu bus _
      · exact OnlyCycles.executeNext.spend cpu bus _

theorem runBudget_onlyCycles (fuel : Nat) (cpu : Cpu) (bus : β) :
    ∃ cycles, (cpu.runBudget fuel bus).2 = Cycle.runAll bus cycles := by
  induction fuel generalizing cpu bus with
  | zero => exact ⟨[], rfl⟩
  | succ fuel ih =>
    unfold runBudget
    split
    · obtain ⟨cycles, hcycles⟩ := cpu.step_onlyCycles bus
      obtain ⟨more, hmore⟩ := ih _ (cpu.step bus).2.2
      exact ⟨cycles ++ more, by rw [Cycle.runAll_append, ← hcycles, ← hmore]⟩
    · exact ⟨[], rfl⟩

end Cpu

end AmstradCpc
