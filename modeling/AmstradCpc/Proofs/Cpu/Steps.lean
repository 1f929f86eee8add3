/-
What a step of the processor is: the acceptance of an interrupt, a halted processor staying as
it is, or an instruction. An instruction after an index prefix is carried out inside that of
the prefix, and could nest further prefixes if one came after it. `executes_fetched_iff` says
that this never happens on a bus that fetches what it has just read: the look-ahead of the
prefix has seen the byte that is fetched next.
-/
import AmstradCpc.Cpu

namespace AmstradCpc

/-- An opcode that is fetched is the byte that has just been read at its address. -/
def Bus.FetchesAsRead (β : Type) [Bus β] : Prop :=
  ∀ (bus : β) (address : UInt16), (Bus.fetch (Bus.read bus address).2 address).1 = (Bus.read bus address).1

namespace Cpu

/-- What a step begins with. -/
inductive Beginning where
  | nmi
  | interrupt
  /-- The processor is halted, and stays so. -/
  | idle
  /-- An opcode is fetched. -/
  | fetch (address : UInt16)
  deriving DecidableEq

def beginning (cpu : Cpu) : Beginning :=
  if cpu.nmiLatch then .nmi
  else if cpu.intLatch && cpu.regs.iff1 && !cpu.shadow then .interrupt
  else if cpu.regs.halted then .idle
  else .fetch cpu.regs.pc

section Step

variable {β : Type} [Bus β]

/-- What is left of an instruction when its first byte has been fetched. -/
def executeFetched (opcode : UInt8) : Exec β Nat :=
  match Opcode.decode opcode with
  | .index idx => executeIndexed idx
  | first => executeOpcode .hl first

/-- The bus sees the beginning of a step, and what follows depends on what it answers. -/
theorem step_eq (cpu : Cpu) (bus : β) : cpu.step bus =
    match cpu.beginning with
    | .nmi => spend { cpu with nmiLatch := false } bus cpu.shadow acceptNmi
    | .interrupt => spend { cpu with intLatch := false } bus cpu.shadow acceptInt
    | .idle => spend cpu bus false idle
    | .fetch address =>
      let (opcode, bus) := Bus.fetch bus address
      spend { cpu with regs := { cpu.regs with pc := address + 1 }.refresh } bus false
        (executeFetched opcode) := by
  simp only [step, beginning]
  split
  · rfl
  · split
    · rfl
    · split <;> rfl

/-! ## Prefixes -/

/-- The byte after a prefix, which is looked at before anything else is done. -/
def lookAhead (core : Core β) : UInt8 × Core β := Exec.readByte core.regs.pc core

/-- An index prefix. -/
def IsPrefix (byte : UInt8) : Prop := byte = 0xDD ∨ byte = 0xFD

instance (byte : UInt8) : Decidable (IsPrefix byte) := inferInstanceAs (Decidable (byte = 0xDD ∨ byte = 0xFD))

/-- Carrying out an opcode, with what it costs and leaves behind. A prefix is done with at once
where another one comes after it; else it carries out the opcode after it, whatever that is.
`depth` counts how often this happens. -/
inductive Executes : (depth : Nat) → IndexReg → Opcode → Core β → Nat × Core β → Prop where
  | plain {idx : IndexReg} {opcode : Opcode} {core : Core β} (h : ∀ r, opcode ≠ .index r) :
      Executes 0 idx opcode core (executeOpcode idx opcode core)
  | alone {idx r : IndexReg} {core : Core β} (h : IsPrefix (lookAhead core).1) :
      Executes 0 idx (.index r) core (4, (lookAhead core).2)
  | nested {depth : Nat} {idx r : IndexReg} {core : Core β} {after : Nat × Core β}
      (h : ¬IsPrefix (lookAhead core).1)
      (hnext : Executes depth r (.decode (Exec.fetchOpcode (lookAhead core).2).1)
        (Exec.fetchOpcode (lookAhead core).2).2 after) :
      Executes (depth + 1) idx (.index r) core (4 + after.1, after.2)

theorem Executes.unique {depth depth' : Nat} {idx : IndexReg} {opcode : Opcode} {core : Core β}
    {after after' : Nat × Core β} (h : Executes depth idx opcode core after)
    (h' : Executes depth' idx opcode core after') : depth' = depth ∧ after' = after := by
  induction h generalizing depth' after' with
  | plain hplain =>
    cases h' with
    | plain => exact ⟨rfl, rfl⟩
    | alone | nested => exact absurd rfl (hplain _)
  | alone halone =>
    cases h' with
    | plain hplain => exact absurd rfl (hplain _)
    | alone => exact ⟨rfl, rfl⟩
    | nested hnot => exact absurd halone hnot
  | nested hnot _ ih =>
    cases h' with
    | plain hplain => exact absurd rfl (hplain _)
    | alone halone => exact absurd halone hnot
    | nested _ hnext =>
      obtain ⟨rfl, rfl⟩ := ih hnext
      exact ⟨rfl, rfl⟩

theorem decode_ne_index {byte : UInt8} (h : ¬IsPrefix byte) (r : IndexReg) : Opcode.decode byte ≠ .index r :=
  fun hindex => h ((Opcode.decode_eq_index_iff byte).mp ⟨r, hindex⟩)

/-- What the prefix has looked at is what comes next. -/
theorem fetch_lookAhead (hbus : Bus.FetchesAsRead β) (core : Core β) :
    (Exec.fetchOpcode (lookAhead core).2).1 = (lookAhead core).1 := hbus core.bus core.regs.pc

theorem executeIndexed_alone {core : Core β} (idx : IndexReg) (h : IsPrefix (lookAhead core).1) :
    executeIndexed idx core = (4, (lookAhead core).2) := by
  show (if IsPrefix (lookAhead core).1 then Pure.pure 4 else _ : Exec β Nat) (lookAhead core).2 = _
  rw [if_pos h]
  rfl

theorem executeIndexed_nested {core : Core β} (idx : IndexReg) (h : ¬IsPrefix (lookAhead core).1) :
    executeIndexed idx core =
      let fetched := Exec.fetchOpcode (lookAhead core).2
      let after := executeOpcode idx (.decode fetched.1) fetched.2
      (4 + after.1, after.2) := by
  show (if IsPrefix (lookAhead core).1 then _ else _ : Exec β Nat) (lookAhead core).2 = _
  rw [if_neg h]
  rfl

/-- An index prefix is carried out alone, or with one opcode nested in it. -/
theorem exists_executes_index (hbus : Bus.FetchesAsRead β) (idx r : IndexReg) (core : Core β) :
    ∃ depth ≤ 1, Executes depth idx (.index r) core (executeIndexed r core) := by
  by_cases h : IsPrefix (lookAhead core).1
  · rw [executeIndexed_alone r h]
    exact ⟨0, by decide, .alone h⟩
  · rw [executeIndexed_nested r h]
    have hfetched : ¬IsPrefix (Exec.fetchOpcode (lookAhead core).2).1 := by
      rwa [fetch_lookAhead hbus]
    exact ⟨1, by decide, .nested h (.plain (decode_ne_index hfetched))⟩

/-- What is left of an instruction is carried out in one way. -/
theorem executes_fetched_iff (hbus : Bus.FetchesAsRead β) (opcode : UInt8) (core : Core β) :
    ∃ depth ≤ 1, ∀ depth' after, Executes depth' .hl (.decode opcode) core after ↔
      depth' = depth ∧ after = executeFetched opcode core := by
  have hexists : ∃ depth ≤ 1, Executes depth .hl (.decode opcode) core (executeFetched opcode core) := by
    cases hopcode : Opcode.decode opcode with
    | index r =>
      simp only [executeFetched, hopcode]
      exact exists_executes_index hbus .hl r core
    | plain | bits | extended =>
      simp only [executeFetched, hopcode]
      exact ⟨0, by decide, .plain nofun⟩
  obtain ⟨depth, hdepth, hexecutes⟩ := hexists
  refine ⟨depth, hdepth, fun depth' after => ⟨fun h => hexecutes.unique h, ?_⟩⟩
  rintro ⟨rfl, rfl⟩
  exact hexecutes

/-! ## A step that fetches an opcode -/

theorem fetches {cpu : Cpu} {address : UInt16} (h : cpu.beginning = .fetch address) :
    address = cpu.regs.pc ∧ cpu.regs.halted = false := by
  unfold beginning at h
  grind

/-- What an instruction works on. -/
def core (cpu : Cpu) (bus : β) : Core β := ⟨cpu.regs, false, bus⟩

/-- The cost of a step and what it leaves behind. -/
def stepped (cpu : Cpu) (bus : β) : Nat × Core β :=
  let (cost, cpu, bus) := cpu.step bus
  (cost, ⟨cpu.regs, cpu.shadow, bus⟩)

theorem stepped_fetch {cpu : Cpu} {address : UInt16} (h : cpu.beginning = .fetch address) (bus : β) :
    cpu.stepped bus =
      let (opcode, core) := Exec.fetchOpcode (cpu.core bus)
      executeFetched opcode core := by
  rw [stepped, step_eq, h, (fetches h).1]
  rfl

/-- The processor and the bus after a piece of work with its cost. -/
def after (cpu : Cpu) (outcome : Nat × Core β) : Nat × Cpu × β :=
  (outcome.1,
    { cpu with regs := outcome.2.regs, shadow := outcome.2.shadow, total := cpu.total.advance outcome.1 },
    outcome.2.bus)

theorem step_eq_after {cpu : Cpu} {address : UInt16} (h : cpu.beginning = .fetch address) (bus : β) :
    cpu.step bus =
      cpu.after (executeFetched (Exec.fetchOpcode (cpu.core bus)).1 (Exec.fetchOpcode (cpu.core bus)).2) := by
  rw [step_eq, h, (fetches h).1]
  rfl

theorem step_eq_executeOpcode {cpu : Cpu} {bus : β} {op : UInt8}
    (hbegins : cpu.beginning = .fetch cpu.regs.pc) (hfetched : (Bus.fetch bus cpu.regs.pc).1 = op) (hop : ¬IsPrefix op) :
    cpu.step bus = cpu.after (executeOpcode .hl (.decode op) (Exec.fetchOpcode (cpu.core bus)).2) := by
  have hfetched : (Exec.fetchOpcode (cpu.core bus)).1 = op := hfetched
  rw [step_eq_after hbegins, hfetched, executeFetched]
  cases hdecode : Opcode.decode op with
  | index r => exact absurd hdecode (decode_ne_index hop r)
  | plain | bits | extended => rfl

/-- **A step carries out its opcode in one way, with at most one more nested in it**, if the bus
fetches what it has just read. -/
theorem executes_stepped_iff (hbus : Bus.FetchesAsRead β) {cpu : Cpu} {address : UInt16}
    (h : cpu.beginning = .fetch address) (bus : β) :
    let (opcode, core) := Exec.fetchOpcode (cpu.core bus)
    ∃ depth ≤ 1, ∀ depth' after, Executes depth' .hl (.decode opcode) core after ↔
      depth' = depth ∧ after = cpu.stepped bus := by
  rw [stepped_fetch h bus]
  exact executes_fetched_iff hbus _ _

end Step

end Cpu

end AmstradCpc
