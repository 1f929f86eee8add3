/-
A maskable interrupt waits in its latch until it can be taken, and the program does not notice that
it waits: as long as interrupts are disabled or held off, a run with the line raised is the run with
it dropped (`run_withLine`). Where neither is so, the next step takes the interrupt, and what that
comes to is `acknowledged`. The address that goes on the stack is where the program goes on
afterwards: behind a HALT, and at a block instruction that has not got to its end.
-/
import AmstradCpc.Bus.Flat
import AmstradCpc.Proofs.Cpu.Pieces
import AmstradCpc.Proofs.Cpu.Steps
import AmstradCpc.Proofs.Word

namespace AmstradCpc

namespace Cpu

variable {β : Type} [Bus β]

/-! ## The line -/

/-- No maskable interrupt is taken by the next step, whether one is raised or not. -/
def Held (cpu : Cpu) : Prop := cpu.nmiLatch = true ∨ cpu.regs.iff1 = false ∨ cpu.shadow = true

/-- The same processor with the line raised or not. -/
def withLine (cpu : Cpu) (raised : Bool) : Cpu := { cpu with intLatch := raised }

theorem beginning_withLine {cpu : Cpu} (h : cpu.Held) (raised : Bool) :
    (cpu.withLine raised).beginning = cpu.beginning := by
  unfold Held at h
  unfold beginning withLine
  grind

theorem beginning_eq_interrupt_iff (cpu : Cpu) :
    cpu.beginning = .interrupt ↔ cpu.intLatch = true ∧ ¬cpu.Held := by
  unfold beginning Held
  grind

theorem halted_of_idle {cpu : Cpu} (h : cpu.beginning = .idle) : cpu.regs.halted = true := by
  unfold beginning at h
  grind

/-- A step that does not take the interrupt does not touch the line. -/
theorem step_withLine {cpu : Cpu} (h : cpu.Held) (raised : Bool) (bus : β) :
    (cpu.withLine raised).step bus =
      let (cost, cpu', bus') := cpu.step bus
      (cost, cpu'.withLine raised, bus') := by
  have hline : cpu.beginning ≠ .interrupt := fun hbegins => ((beginning_eq_interrupt_iff cpu).mp hbegins).2 h
  rw [step_eq, step_eq, beginning_withLine h]
  cases hbegins : cpu.beginning with
  | interrupt => exact absurd hbegins hline
  | nmi | idle | fetch => rfl

/-- What comes of taking an interrupt. -/
def acknowledged (cpu : Cpu) (bus : β) : Nat × Cpu × β :=
  let r := cpu.regs
  let (data, bus) := Bus.acknowledge bus
  let bus := Bus.write (Bus.write bus (r.sp - 1) (highByte r.pc)) (r.sp - 2) (lowByte r.pc)
  let (cost, target, bus) :=
    if r.im = 2 then
      let entry := r.i.toUInt16 * 256 + (data &&& 0xFE).toUInt16
      let (lo, bus) := Bus.read bus entry
      let (hi, bus) := Bus.read bus (entry + 1)
      (19, joinBytes hi lo, bus)
    else (13, 0x0038, bus)
  let regs := { r.refresh with
    sp := r.sp - 2, pc := target, wz := target, iff1 := false, iff2 := false, halted := false }
  (cost, { cpu with regs, intLatch := false, total := cpu.total.advance cost }, bus)

theorem step_acknowledged {cpu : Cpu} (h : cpu.beginning = .interrupt) (bus : β) :
    cpu.step bus = cpu.acknowledged bus := by
  have hsp : cpu.regs.sp - 1 - 1 = cpu.regs.sp - 2 := by grind
  -- The interrupt mode is not looked at before the program counter is on the stack.
  let pushed : Core β :=
    ⟨{ cpu.regs.refresh with sp := cpu.regs.sp - 1 - 1, iff1 := false, iff2 := false, halted := false },
      cpu.shadow,
      Bus.write (Bus.write (Bus.acknowledge bus).2 (cpu.regs.sp - 1) (highByte cpu.regs.pc))
        (cpu.regs.sp - 1 - 1) (lowByte cpu.regs.pc)⟩
  have haccept : acceptInt ⟨cpu.regs, cpu.shadow, bus⟩ =
      (if cpu.regs.im = 2 then do
        jumpAbsolute (← Exec.readWord (joinBytes cpu.regs.i ((Bus.acknowledge bus).1 &&& 0xFE)))
        return 19
      else do
        jumpAbsolute 0x0038
        return 13 : Exec β Nat) pushed := rfl
  rw [step_eq, h]
  dsimp only
  rw [spend, haccept]
  by_cases him : cpu.regs.im = 2
  · rw [if_pos him]
    simp only [acknowledged, if_pos him, ← hsp]
    rfl
  · rw [if_neg him]
    simp only [acknowledged, if_neg him, ← hsp]
    rfl

/-! ## What a step carries out -/

/-- An opcode of the first table that a step carries out. -/
structure Carried (β : Type) where
  address : UInt16
  opcode : UInt8
  idx : IndexReg
  /-- Registers and bus when it has been fetched. -/
  core : Core β

/-- The opcode that a step carries out; an index prefix carries out the one after it, unless that is
a prefix as well. -/
def carriedOut (cpu : Cpu) (bus : β) : Option (Carried β) :=
  match cpu.beginning with
  | .fetch address =>
    let fetched := Exec.fetchOpcode (cpu.core bus)
    match Opcode.decode fetched.1 with
    | .index idx =>
      let looked := lookAhead fetched.2
      if IsPrefix looked.1 then none
      else
        let fetched := Exec.fetchOpcode looked.2
        some ⟨address + 1, fetched.1, idx, fetched.2⟩
    | _ => some ⟨address, fetched.1, .hl, fetched.2⟩
  | _ => none

theorem carriedOut_eq_none {cpu : Cpu} (h : ∀ address, cpu.beginning ≠ .fetch address) (bus : β) :
    cpu.carriedOut bus = none := by
  unfold carriedOut
  split
  next address hbegins => exact absurd hbegins (h address)
  · rfl

/-- A step that fetches an opcode carries out one, or is that of a prefix alone. -/
theorem carriedOut_cases {cpu : Cpu} {address : UInt16} (hbegins : cpu.beginning = .fetch address) (bus : β) :
    (∃ c cost, cpu.carriedOut bus = some c ∧
      cpu.stepped bus = (cost, (executeOpcode c.idx (.decode c.opcode) c.core).2) ∧
      c.core.regs.pc = c.address + 1 ∧ c.core.regs.halted = false ∧ c.core.shadow = false) ∨
    cpu.carriedOut bus = none ∧ (cpu.stepped bus).2.regs.halted = false ∧
      (cpu.stepped bus).2.shadow = false := by
  obtain ⟨rfl, hhalted⟩ := fetches hbegins
  let fetched := Exec.fetchOpcode (cpu.core bus)
  have hstepped : cpu.stepped bus = executeFetched fetched.1 fetched.2 := stepped_fetch hbegins bus
  cases hdecode : Opcode.decode fetched.1 with
  | index idx =>
    simp only [executeFetched, hdecode] at hstepped
    by_cases hnext : IsPrefix (lookAhead fetched.2).1
    · have hnone : cpu.carriedOut bus = none := by
        simp only [carriedOut, hbegins, fetched, hdecode, if_pos hnext]
      rw [executeIndexed_alone idx hnext] at hstepped
      exact .inr ⟨hnone, hstepped ▸ hhalted, hstepped ▸ rfl⟩
    · let next := Exec.fetchOpcode (lookAhead fetched.2).2
      have hsome : cpu.carriedOut bus = some ⟨cpu.regs.pc + 1, next.1, idx, next.2⟩ := by
        simp only [carriedOut, hbegins, fetched, hdecode, if_neg hnext, next]
      rw [executeIndexed_nested idx hnext] at hstepped
      exact .inl ⟨_, _, hsome, hstepped, rfl, hhalted, rfl⟩
  | plain | bits | extended =>
    simp only [executeFetched, hdecode] at hstepped
    have hsome : cpu.carriedOut bus = some ⟨cpu.regs.pc, fetched.1, .hl, fetched.2⟩ := by
      simp only [carriedOut, hbegins, fetched, hdecode]
    exact .inl ⟨_, _, hsome, hdecode ▸ hstepped, rfl, hhalted, rfl⟩

theorem decode_eq_halt_iff (op : UInt8) : Opcode.decode op = .plain .halt ↔ op = 0x76 := by
  revert op
  exact forall_byte (by decide +kernel)

theorem decode_eq_enableInterrupts_iff (op : UInt8) :
    Opcode.decode op = .plain .enableInterrupts ↔ op = 0xFB := by
  revert op
  exact forall_byte (by decide +kernel)

/-- What outlasts a step besides registers and bus: whether the processor is halted, and whether
interrupts are held off. -/
def WaitsAlike (core core' : Core β) : Prop := core'.regs.halted = core.regs.halted ∧ core'.shadow = core.shadow

instance : Allowing (WaitsAlike : Core β → Core β → Prop) where
  refl _ := ⟨rfl, rfl⟩
  trans h h' := ⟨h'.1.trans h.1, h'.2.trans h.2⟩
  cycle _ _ := ⟨rfl, rfl⟩
  change h core := ⟨h core.regs, rfl⟩

/-- HALT halts the processor, EI holds interrupts off, and no other opcode does either. -/
theorem executeOpcode_leaves (idx : IndexReg) (op : UInt8) (core : Core β) :
    let after := (executeOpcode idx (.decode op) core).2
    after.regs.halted = (core.regs.halted || op == 0x76) ∧ after.shadow = (core.shadow || op == 0xFB) := by
  by_cases hhalt : op = 0x76
  · rw [(decode_eq_halt_iff op).mpr hhalt, hhalt]
    exact ⟨(Bool.or_true _).symm, (Bool.or_false _).symm⟩
  by_cases henable : op = 0xFB
  · rw [(decode_eq_enableInterrupts_iff op).mpr henable, henable]
    exact ⟨(Bool.or_false _).symm, (Bool.or_true _).symm⟩
  have halike : Keeps WaitsAlike (executeOpcode idx (.decode op) : Exec β Nat) :=
    Keeps.executeOpcode idx (fun h => hhalt ((decode_eq_halt_iff op).mp h))
      fun h => henable ((decode_eq_enableInterrupts_iff op).mp h)
  rw [beq_false_of_ne hhalt, beq_false_of_ne henable, Bool.or_false, Bool.or_false]
  exact halike core

/-- Interrupts are held off after EI, and still are when an NMI has been taken right then. -/
theorem shadow_step_iff (cpu : Cpu) (bus : β) : (cpu.step bus).2.1.shadow = true ↔
    cpu.beginning = .nmi ∧ cpu.shadow = true ∨ ∃ c, cpu.carriedOut bus = some c ∧ c.opcode = 0xFB := by
  cases hbegins : cpu.beginning with
  | nmi =>
    have hshadow : (cpu.step bus).2.1.shadow = cpu.shadow := by
      rw [step_eq, hbegins]
      rfl
    simp [hshadow, carriedOut_eq_none, hbegins]
  | interrupt =>
    have hheld := ((beginning_eq_interrupt_iff cpu).mp hbegins).2
    have hshadow : (cpu.step bus).2.1.shadow = cpu.shadow := by
      rw [step_acknowledged hbegins]
      rfl
    simp only [Held, not_or] at hheld
    simp [hshadow, carriedOut_eq_none, hbegins, hheld.2.2]
  | idle =>
    have hshadow : (cpu.step bus).2.1.shadow = false := by
      rw [step_eq, hbegins]
      rfl
    simp [hshadow, carriedOut_eq_none, hbegins]
  | fetch address =>
    show (cpu.stepped bus).2.shadow = true ↔ _
    obtain ⟨c, cost, hsome, hstepped, -, -, hshadow⟩ | ⟨hnone, -, hshadow⟩ := carriedOut_cases hbegins bus
    · rw [hstepped]
      simp [(executeOpcode_leaves c.idx c.opcode c.core).2, hshadow, hsome]
    · simp [hshadow, hnone]

/-- A step leaves the processor halted if it was and stays so, or if HALT is carried out. -/
theorem halted_step_iff (cpu : Cpu) (bus : β) : (cpu.step bus).2.1.regs.halted = true ↔
    cpu.beginning = .idle ∨ ∃ c, cpu.carriedOut bus = some c ∧ c.opcode = 0x76 := by
  cases hbegins : cpu.beginning with
  | nmi =>
    have hhalted : (cpu.step bus).2.1.regs.halted = false := by
      rw [step_eq, hbegins]
      rfl
    simp [hhalted, carriedOut_eq_none, hbegins]
  | interrupt =>
    have hhalted : (cpu.step bus).2.1.regs.halted = false := by
      rw [step_acknowledged hbegins]
      rfl
    simp [hhalted, carriedOut_eq_none, hbegins]
  | idle =>
    have hhalted : (cpu.step bus).2.1.regs.halted = cpu.regs.halted := by
      rw [step_eq, hbegins]
      rfl
    simp [hhalted, halted_of_idle hbegins]
  | fetch address =>
    show (cpu.stepped bus).2.regs.halted = true ↔ _
    obtain ⟨c, cost, hsome, hstepped, -, hhalted, -⟩ | ⟨hnone, hhalted, -⟩ := carriedOut_cases hbegins bus
    · rw [hstepped]
      simp [(executeOpcode_leaves c.idx c.opcode c.core).1, hhalted, hsome]
    · simp [hhalted, hnone]

theorem pc_step_idle {cpu : Cpu} (h : cpu.beginning = .idle) (bus : β) :
    (cpu.step bus).2.1.regs.pc = cpu.regs.pc := by
  rw [step_eq, h]
  rfl

theorem stepped_of_carriedOut {cpu : Cpu} {bus : β} {c : Carried β} (h : cpu.carriedOut bus = some c) :
    ∃ cost, cpu.stepped bus = (cost, (executeOpcode c.idx (.decode c.opcode) c.core).2) ∧
      c.core.regs.pc = c.address + 1 := by
  cases hbegins : cpu.beginning with
  | nmi | interrupt | idle =>
    rw [carriedOut_eq_none (by rw [hbegins]; nofun)] at h
    cases h
  | fetch address =>
    obtain ⟨c', cost, hsome, hstepped, hpc, -⟩ | ⟨hnone, -⟩ := carriedOut_cases hbegins bus
    · obtain rfl := Option.some.inj (h.symm.trans hsome)
      exact ⟨cost, hstepped, hpc⟩
    · rw [h] at hnone
      cases hnone

/-- A processor that halts goes on behind the HALT. -/
theorem pc_step_halt {cpu : Cpu} {bus : β} {c : Carried β} (h : cpu.carriedOut bus = some c)
    (hop : c.opcode = 0x76) : (cpu.step bus).2.1.regs.pc = c.address + 1 := by
  obtain ⟨cost, hstepped, hpc⟩ := stepped_of_carriedOut h
  show (cpu.stepped bus).2.regs.pc = _
  rw [hstepped, (decode_eq_halt_iff c.opcode).mpr hop, ← hpc]
  rfl

/-! ## Block instructions -/

/-- The instruction has not got to its end when it leaves these registers. -/
def BlockOp.unfinished (op : BlockOp) (r : Registers) : Bool :=
  match op with
  | .copy => r.bc != 0
  | .compare => r.bc != 0 && !r.f.zero
  | .input | .output => r.b != 0

theorem blockItem_unfinished (op : BlockOp) (down : Bool) (core : Core β) :
    (blockItem op down core).1 = op.unfinished (blockItem op down core).2.regs ∧
    (blockItem op down core).2.regs.pc = core.regs.pc := by
  cases op with
  | copy =>
    have hbc : (blockItem .copy down core).2.regs.bc = core.regs.bc - 1 := joinBytes_halves _
    rw [BlockOp.unfinished, hbc]
    exact ⟨rfl, rfl⟩
  | compare =>
    let v := (Bus.read core.bus core.regs.hl).1
    have hbc : (blockItem .compare down core).2.regs.bc = core.regs.bc - 1 := joinBytes_halves _
    have hzero : (blockItem .compare down core).2.regs.f.zero = (core.regs.a - v == 0) :=
      congrArg (· == 0) (UInt8.sub_zero (core.regs.a - v))
    rw [BlockOp.unfinished, hbc, hzero]
    exact ⟨rfl, rfl⟩
  | input | output => exact ⟨rfl, rfl⟩

theorem pc_executeBlock (op : BlockOp) (down : Bool) (core : Core β) :
    let after := (executeBlock op down true core).2
    after.regs.pc = if op.unfinished after.regs then core.regs.pc - 2 else core.regs.pc := by
  obtain ⟨hmore, hpc⟩ := blockItem_unfinished op down core
  rw [← hpc]
  rcases hitem : blockItem op down core with ⟨more, item⟩
  rw [hitem] at hmore
  dsimp only at hmore ⊢
  -- Going back changes neither a counter nor a flag, so what is unfinished still is.
  cases more with
  | false =>
    have hafter : (executeBlock op down true core).2 = item := by
      simp only [executeBlock, bind, StateT.bind, hitem]
      rfl
    rw [hafter, ← hmore]
    rfl
  | true =>
    have hafter : (executeBlock op down true core).2.regs.pc = item.regs.pc - 2 ∧
        op.unfinished (executeBlock op down true core).2.regs = op.unfinished item.regs := by
      simp only [executeBlock, bind, StateT.bind, hitem]
      cases op <;> exact ⟨rfl, rfl⟩
    rw [hafter.1, hafter.2, ← hmore]
    rfl

/-- A repeating instruction that has not got to its end comes next again. -/
theorem pc_step_block {cpu : Cpu} {bus : β} {c : Carried β} {op : BlockOp} {down : Bool}
    (h : cpu.carriedOut bus = some c) (hop : c.opcode = 0xED)
    (hblock : Extended.decode (Exec.fetchOpcode c.core).1 = .block op down true) :
    (cpu.step bus).2.1.regs.pc =
      if op.unfinished (cpu.step bus).2.1.regs then c.address else c.address + 2 := by
  obtain ⟨cost, hstepped, hpc⟩ := stepped_of_carriedOut h
  show (cpu.stepped bus).2.regs.pc = if op.unfinished (cpu.stepped bus).2.regs then _ else _
  have hextended : (executeOpcode c.idx (.decode c.opcode) c.core) =
      executeBlock op down true (Exec.fetchOpcode c.core).2 := by
    rw [hop, show Opcode.decode 0xED = .extended by decide]
    show executeExtended (.decode (Exec.fetchOpcode c.core).1) (Exec.fetchOpcode c.core).2 = _
    rw [hblock]
    rfl
  have hfetched : (Exec.fetchOpcode c.core).2.regs.pc = c.address + 2 := by
    show c.core.regs.pc + 1 = _
    rw [hpc]
    grind
  rw [hstepped, hextended, pc_executeBlock, hfetched, UInt16.add_sub_cancel]

/-! ## Runs -/

/-- What each of `n` steps costs, and processor and bus after them. -/
def run (cpu : Cpu) (bus : β) : Nat → List Nat × Cpu × β
  | 0 => ([], cpu, bus)
  | n + 1 =>
    let (costs, cpu, bus) := run cpu bus n
    let (cost, cpu, bus) := cpu.step bus
    (costs ++ [cost], cpu, bus)

theorem run_withLine {cpu : Cpu} {bus : β} {n : Nat} (h : ∀ k < n, (cpu.run bus k).2.1.Held) (raised : Bool) :
    (cpu.withLine raised).run bus n =
      let (costs, cpu', bus') := cpu.run bus n
      (costs, cpu'.withLine raised, bus') := by
  induction n with
  | zero => rfl
  | succ n ih =>
    rw [run, ih fun k hk => h k (by omega)]
    simp only [step_withLine (h n (by omega)), run]

/-- The last instruction before the step numbered `n` was EI. Taking an NMI is not an instruction. -/
def AfterEnable (cpu : Cpu) (bus : β) : Nat → Prop
  | 0 => cpu.shadow = true
  | n + 1 =>
    let (_, cpu', bus') := cpu.run bus n
    cpu'.beginning = .nmi ∧ AfterEnable cpu bus n ∨
      ∃ c, cpu'.carriedOut bus' = some c ∧ c.opcode = 0xFB

theorem shadow_run_iff (cpu : Cpu) (bus : β) (n : Nat) :
    (cpu.run bus n).2.1.shadow = true ↔ AfterEnable cpu bus n := by
  induction n with
  | zero => rfl
  | succ n ih =>
    rw [AfterEnable, ← ih]
    exact shadow_step_iff (cpu.run bus n).2.1 (cpu.run bus n).2.2

/-- A HALT at the address has been carried out, and nothing since. -/
inductive HaltedAt (cpu : Cpu) (bus : β) (address : UInt16) : Nat → Prop where
  | halt {n : Nat} {c : Carried β} (h : (cpu.run bus n).2.1.carriedOut (cpu.run bus n).2.2 = some c)
      (hop : c.opcode = 0x76) (haddress : c.address = address) : HaltedAt cpu bus address (n + 1)
  | idle {n : Nat} (h : HaltedAt cpu bus address n) (hidle : (cpu.run bus n).2.1.beginning = .idle) :
      HaltedAt cpu bus address (n + 1)

/-- What comes after the HALT is where the processor stands. -/
theorem HaltedAt.pc {cpu : Cpu} {bus : β} {address : UInt16} {n : Nat} (h : HaltedAt cpu bus address n) :
    (cpu.run bus n).2.1.regs.pc = address + 1 := by
  induction h with
  | halt h hop haddress =>
    rw [← haddress]
    exact pc_step_halt h hop
  | idle _ hidle ih => exact (pc_step_idle hidle _).trans ih

/-- A halted processor has carried out a HALT, unless it has been halted from the start. -/
theorem halted_run_cases {cpu : Cpu} {bus : β} {n : Nat} (h : (cpu.run bus n).2.1.regs.halted = true) :
    cpu.regs.halted = true ∧ (cpu.run bus n).2.1.regs.pc = cpu.regs.pc ∨
      ∃ address, HaltedAt cpu bus address n := by
  induction n with
  | zero => exact .inl ⟨h, rfl⟩
  | succ n ih =>
    obtain hidle | ⟨c, hsome, hop⟩ := (halted_step_iff (cpu.run bus n).2.1 (cpu.run bus n).2.2).mp h
    · obtain ⟨hstart, hpc⟩ | ⟨address, hhalted⟩ := ih (halted_of_idle hidle)
      · exact .inl ⟨hstart, (pc_step_idle hidle _).trans hpc⟩
      · exact .inr ⟨address, hhalted.idle hidle⟩
    · exact .inr ⟨c.address, .halt hsome hop rfl⟩

/-- The processor has just done one item of a repeating block instruction, whose second last byte is
the ED at the address, and there are more to do. -/
inductive RepeatsAt (cpu : Cpu) (bus : β) (address : UInt16) : Nat → Prop where
  | item {n : Nat} {c : Carried β} {op : BlockOp} {down : Bool}
      (h : (cpu.run bus n).2.1.carriedOut (cpu.run bus n).2.2 = some c) (hop : c.opcode = 0xED)
      (hblock : Extended.decode (Exec.fetchOpcode c.core).1 = .block op down true)
      (haddress : c.address = address) (hmore : op.unfinished (cpu.run bus (n + 1)).2.1.regs = true) :
      RepeatsAt cpu bus address (n + 1)

theorem RepeatsAt.pc {cpu : Cpu} {bus : β} {address : UInt16} {n : Nat} (h : RepeatsAt cpu bus address n) :
    (cpu.run bus n).2.1.regs.pc = address := by
  cases h with
  | item h hop hblock haddress hmore =>
    rw [← haddress]
    exact (pc_step_block h hop hblock).trans (if_pos hmore)

/-- **A maskable interrupt is never lost and never taken early.** As long as interrupts are disabled,
EI has come right before, or an NMI is pending, a run with the line raised and one with it dropped
are the same but for the latch, with the same bus cycles and T-states. When none of these is so, the
interrupt is taken: the latch, both enable flags and the halt are cleared, the program counter goes
on the stack, and the handler is the one that the mode asks for. A halted processor has its program
counter behind the HALT, and one that repeats a block instruction has it at the ED. -/
theorem interrupt_waits (cpu : Cpu) (bus : β) (n : Nat)
    (hheld : ∀ k < n, let cpu' := (cpu.run bus k).2.1
      cpu'.nmiLatch = true ∨ cpu'.regs.iff1 = false ∨ AfterEnable cpu bus k) :
    let (costs, cpu', bus') := cpu.run bus n
    (cpu.raiseInt.run bus n = (costs, cpu'.raiseInt, bus') ∧
      cpu.clearInt.run bus n = (costs, cpu'.clearInt, bus')) ∧
    (cpu'.nmiLatch = false → cpu'.regs.iff1 = true → ¬AfterEnable cpu bus n →
      cpu'.raiseInt.step bus' = cpu'.acknowledged bus') ∧
    (cpu'.regs.halted = true → cpu.regs.halted = true ∧ cpu'.regs.pc = cpu.regs.pc ∨
      ∃ address, HaltedAt cpu bus address n ∧ cpu'.regs.pc = address + 1) ∧
    (∀ address, RepeatsAt cpu bus address n → cpu'.regs.pc = address) := by
  have hheld : ∀ k < n, (cpu.run bus k).2.1.Held := fun k hk => by
    simpa only [Held, shadow_run_iff] using hheld k hk
  refine ⟨⟨run_withLine hheld true, run_withLine hheld false⟩, fun hnmi hiff henable => ?_,
    fun hhalted => ?_, fun address h => h.pc⟩
  · have hbegins : ((cpu.run bus n).2.1.withLine true).beginning = .interrupt := by
      rw [beginning_eq_interrupt_iff]
      refine ⟨rfl, ?_⟩
      rw [← shadow_run_iff] at henable
      simp [Held, withLine, hnmi, hiff, henable]
    exact step_acknowledged hbegins _
  · exact (halted_run_cases hhalted).imp_right fun ⟨address, h⟩ => ⟨address, h, h.pc⟩

/-- Memory begins with an EI and a NOP. -/
def enabling : FlatBus := (FlatBus.empty.poke 0 0xFB).poke 1 0x00

/-- The processor after the EI. -/
def enabled : Cpu := { initial with
  regs := { Registers.initial with pc := 1, r := 1, iff1 := true, iff2 := true }
  shadow := true
  total := ⟨4⟩ }

/-- The processor after the NOP. -/
def ready : Cpu := { initial with
  regs := { Registers.initial with pc := 2, r := 2, iff1 := true, iff2 := true }
  total := ⟨8⟩ }

theorem run_enabling_one : initial.run enabling 1 = ([4], enabled, enabling) := by
  have hpeek : enabling.peek 0 = 0xFB := by
    rw [enabling, FlatBus.peek_poke_other _ _ (by decide), FlatBus.peek_poke_self]
  show ([] ++ [(initial.step enabling).1], (initial.step enabling).2) = _
  rw [step_eq_executeOpcode rfl hpeek (by decide), (decode_eq_enableInterrupts_iff 0xFB).mpr rfl]
  rfl

theorem run_enabling_two : initial.run enabling 2 = ([4, 4], ready, enabling) := by
  have hpeek : enabling.peek 1 = 0x00 := FlatBus.peek_poke_self ..
  rw [run, run_enabling_one]
  show ([4] ++ [(enabled.step enabling).1], (enabled.step enabling).2) = _
  rw [step_eq_executeOpcode rfl hpeek (by decide), show Opcode.decode 0x00 = .plain .nop by decide]
  rfl

/-- An interrupt that is raised from the start is taken behind the instruction after the EI. -/
theorem interrupt_waits_enabling :
    (∀ k < 2, let cpu' := (initial.run enabling k).2.1
      cpu'.nmiLatch = true ∨ cpu'.regs.iff1 = false ∨ AfterEnable initial enabling k) ∧
    initial.raiseInt.run enabling 2 = ([4, 4], ready.raiseInt, enabling) ∧
    (ready.raiseInt.step enabling).1 = 13 ∧ (ready.raiseInt.step enabling).2.1.intLatch = false ∧
    (ready.raiseInt.step enabling).2.1.regs.pc = 0x0038 ∧
    (ready.raiseInt.step enabling).2.2.peek 0xFFFD = 2 := by
  have hheld : ∀ k < 2, let cpu' := (initial.run enabling k).2.1
      cpu'.nmiLatch = true ∨ cpu'.regs.iff1 = false ∨ AfterEnable initial enabling k := by
    intro k hk
    obtain rfl | rfl : k = 0 ∨ k = 1 := by omega
    · exact .inr (.inl rfl)
    · refine .inr (.inr ((shadow_run_iff initial enabling 1).mp ?_))
      rw [run_enabling_one]
      rfl
  have hafter : ¬AfterEnable initial enabling 2 := by
    rw [← shadow_run_iff, run_enabling_two]
    decide
  have hwaits := interrupt_waits initial enabling 2 hheld
  rw [run_enabling_two] at hwaits
  obtain ⟨⟨hraised, -⟩, htaken, -⟩ := hwaits
  refine ⟨hheld, hraised, ?_⟩
  rw [htaken rfl rfl hafter]
  exact ⟨rfl, rfl, rfl, FlatBus.peek_poke_self ..⟩

end Cpu

end AmstradCpc
