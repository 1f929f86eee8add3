/-
Where a processor goes on after its snapshot has been loaded. A snapshot has its registers
and the latch of its interrupt line, but not whether it is halted. `resumes_iff` says what
that comes to: a processor that was not halted goes on where it was, and one that was
halted goes on behind the instruction that halted it.
-/
import AmstradCpc.Proofs.Cpu.Steps
import AmstradCpc.Proofs.Snapshot.RoundTrip

namespace AmstradCpc

namespace Snapshot

/-- The processor goes on as another one would. -/
structure Resumes (cpu cpu' : Cpu) : Prop where
  regs : { cpu'.regs with wz := cpu.regs.wz } = cpu.regs
  intLatch : cpu'.intLatch = cpu.intLatch
  beginning : cpu'.beginning = cpu.beginning

variable {m machine : Machine}

theorem beginning_restored (hnmi : m.cpu.nmiLatch = false) (hshadow : m.cpu.shadow = false) :
    (restored m machine).cpu.beginning = m.cpu.beginning ↔
      m.cpu.regs.halted = false ∨ (m.cpu.intLatch && m.cpu.regs.iff1) = true := by
  have hold : m.cpu.beginning =
      if m.cpu.intLatch && m.cpu.regs.iff1 then .interrupt
      else if m.cpu.regs.halted then .idle else .fetch m.cpu.regs.pc := by
    simp [Cpu.beginning, hnmi, hshadow]
  have hnew : (restored m machine).cpu.beginning =
      if m.cpu.intLatch && m.cpu.regs.iff1 then .interrupt else .fetch m.cpu.regs.pc := by
    simp [Cpu.beginning, cpu_restored, Cpu.reset, reloaded]
  rw [hold, hnew]
  cases m.cpu.intLatch && m.cpu.regs.iff1 <;> cases m.cpu.regs.halted <;> simp

theorem resumes_restored (hnmi : m.cpu.nmiLatch = false) (hshadow : m.cpu.shadow = false) :
    Resumes m.cpu (restored m machine).cpu ↔ m.cpu.regs.im ≤ 3 ∧ m.cpu.regs.halted = false := by
  constructor
  · intro h
    have him : m.cpu.regs.im &&& 3 = m.cpu.regs.im := congrArg Cpu.Registers.im h.regs
    have hhalted : false = m.cpu.regs.halted := congrArg Cpu.Registers.halted h.regs
    exact ⟨Nat.le_of_lt_succ ((and_lowBits_iff (n := 2) rfl).mp him), hhalted.symm⟩
  · intro ⟨him, hhalted⟩
    refine ⟨?_, rfl, (beginning_restored hnmi hshadow).mpr (.inl hhalted)⟩
    have hmask : m.cpu.regs.im &&& 3 = m.cpu.regs.im :=
      (and_lowBits_iff (n := 2) rfl).mpr (Nat.lt_succ_of_le him)
    rw [cpu_restored, reloaded, hmask, ← hhalted]

/-- **Where a processor goes on.** It is between two instructions, no non-maskable interrupt
is pending, and the last instruction has not just enabled interrupts. After its snapshot has
been loaded, the registers are as they were and the next step begins as it would have, if
and only if the processor was not halted. The next step of a halted one begins as it would
have only where it accepts an interrupt. -/
theorem resumes_iff (hnmi : m.cpu.nmiLatch = false) (hshadow : m.cpu.shadow = false)
    (hword : m.board.memory.kilobytes < 0x10000)
    (hsize : machine.board.memory.ram.size = m.board.memory.ram.size) :
    ∃ m', load (save m) machine = .ok m' ∧
      (Resumes m.cpu m'.cpu ↔ m.cpu.regs.im ≤ 3 ∧ m.cpu.regs.halted = false) ∧
      (m'.cpu.beginning = m.cpu.beginning ↔
        m.cpu.regs.halted = false ∨ (m.cpu.intLatch && m.cpu.regs.iff1) = true) :=
  ⟨restored m machine, load_save hword hsize, resumes_restored hnmi hshadow, beginning_restored hnmi hshadow⟩

/-- A processor with a pending interrupt accepts it after its snapshot has been loaded. -/
theorem resumes_usedMachine : ∃ m', load (save usedMachine) newMachine = .ok m' ∧
    Resumes usedMachine.cpu m'.cpu ∧ m'.cpu.beginning = .interrupt := by
  have hsize : newMachine.board.memory.ram.size = usedMachine.board.memory.ram.size := rfl
  obtain ⟨m', hload, hresumes, -⟩ := resumes_iff (m := usedMachine) rfl rfl (by decide) hsize
  have h := hresumes.mpr (by decide)
  exact ⟨m', hload, h, h.beginning⟩

/-- A machine that has executed a halt at address 1, with interrupts disabled. -/
def haltedMachine : Machine :=
  { newMachine with
    cpu := { newMachine.cpu with regs := { newMachine.cpu.regs with pc := 2, halted := true } } }

/-- It goes on behind the halt instead of idling. -/
theorem haltedMachine_not_resumes : haltedMachine.cpu.nmiLatch = false ∧ haltedMachine.cpu.shadow = false ∧
    haltedMachine.cpu.beginning = .idle ∧ ∃ m', load (save haltedMachine) newMachine = .ok m' ∧
      m'.cpu.regs.halted = false ∧ m'.cpu.beginning = .fetch 2 ∧ ¬Resumes haltedMachine.cpu m'.cpu :=
  ⟨rfl, rfl, rfl, restored haltedMachine newMachine, load_save (by decide) rfl, rfl, rfl,
    fun h => by cases h.beginning⟩

end Snapshot

end AmstradCpc
