/-
An index prefix is register substitution. An instruction without an operand in memory does under
a prefix what it does without one when HL and the index register are exchanged before and after;
an instruction with one uses the address `index + d` for it and leaves the index register alone.
What is said of instructions holds of whole steps too, because the step of a prefix is its own
fetch, a look at the byte after it, and then the step of the instruction.
-/
import AmstradCpc.Bus.Flat
import AmstradCpc.Proofs.Board.Reached
import AmstradCpc.Proofs.Cpu.Exchange
import AmstradCpc.Proofs.Cpu.Steps
import AmstradCpc.Proofs.Word

namespace AmstradCpc

namespace Cpu

/-! ## Opcodes -/

/-- The opcodes that lead to another table, and the prefixes. -/
def tableOpcodes : List UInt8 := [0xCB, 0xDD, 0xED, 0xFD]

/-- The opcodes that take an operand from where HL points, or put one there. -/
def memoryOpcodes : List UInt8 :=
  [0x34, 0x35, 0x36,
   0x46, 0x4E, 0x56, 0x5E, 0x66, 0x6E, 0x7E,
   0x70, 0x71, 0x72, 0x73, 0x74, 0x75, 0x77,
   0x86, 0x8E, 0x96, 0x9E, 0xA6, 0xAE, 0xB6, 0xBE]

/-- The instruction that an opcode names in the first table. -/
def Opcode.instr? : Opcode → Option Instr
  | .plain instr => some instr
  | _ => none

theorem isNone_instr?_decode : ∀ op, (Opcode.decode op).instr?.isNone = decide (op ∈ tableOpcodes) :=
  forall_byte (by decide +kernel)

theorem any_hasMemoryOperand_decode :
    ∀ op, (Opcode.decode op).instr?.any Instr.hasMemoryOperand = decide (op ∈ memoryOpcodes) :=
  forall_byte (by decide +kernel)

theorem any_exchangesHL_decode :
    ∀ op, (Opcode.decode op).instr?.any Instr.exchangesHL = decide (op = 0xEB ∨ op = 0xD9) :=
  forall_byte (by decide +kernel)

theorem exists_decode_eq_plain {op : UInt8} (h : op ∉ tableOpcodes) :
    ∃ instr, Opcode.decode op = .plain instr ∧
      instr.hasMemoryOperand = decide (op ∈ memoryOpcodes) ∧
      instr.exchangesHL = decide (op = 0xEB ∨ op = 0xD9) := by
  have hsome := isNone_instr?_decode op
  have hmem := any_hasMemoryOperand_decode op
  have hexchange := any_exchangesHL_decode op
  cases hdecode : Opcode.decode op with
  | plain instr =>
    rw [hdecode] at hmem hexchange
    exact ⟨instr, rfl, hmem, hexchange⟩
  | bits | extended | index =>
    rw [hdecode, decide_eq_false h] at hsome
    cases hsome

/-! ## Instructions with an operand in memory -/

/-- The register itself: H and L, whatever prefix there is. -/
def Registers.plain (r : Registers) : Reg8 → UInt8
  | .b => r.b
  | .c => r.c
  | .d => r.d
  | .e => r.e
  | .h => r.h
  | .l => r.l
  | .a => r.a

def Registers.setPlain (r : Registers) (v : UInt8) : Reg8 → Registers
  | .b => { r with b := v }
  | .c => { r with c := v }
  | .d => { r with d := v }
  | .e => { r with e := v }
  | .h => { r with h := v }
  | .l => { r with l := v }
  | .a => { r with a := v }

theorem Registers.get8_hl (r : Registers) (source : Reg8) : r.get8 .hl source = r.plain source := by
  cases source <;> simp [get8, plain, index, hl, highByte_joinBytes, lowByte_joinBytes]

theorem Registers.set8_hl (r : Registers) (target : Reg8) (v : UInt8) :
    r.set8 .hl target v = r.setPlain v target := by
  cases target <;>
    simp [set8, setPlain, setIndex, setHL, index, hl, highByte_joinBytes, lowByte_joinBytes]

section Memory

variable {β : Type} [Bus β]

open Exec

/-- Replaces the byte at an address. -/
def modifyAt (a : UInt16) (f : UInt8 → Flags → UInt8 × Flags) : Exec β Nat := do
  let v ← readByte a
  let (v, fl) := f v (← flags)
  writeByte a v
  setFlags fl
  return 11

/-- What an instruction does when its operand in memory has the address `a`, and what it costs at HL. -/
def executeAt (a : UInt16) : Instr → Exec β Nat
  | .load target => do
    let v ← readByte a
    modifyRegs fun r => r.setPlain v target
    return 7
  | .store source => do
    writeByte a ((← registers).plain source)
    return 7
  | .set .mem => do
    writeByte a (← operandByte)
    return 10
  | .inc .mem => modifyAt a inc8
  | .dec .mem => modifyAt a dec8
  | .accumulate op .mem => do
    let v ← readByte a
    let r ← registers
    setResult (op.apply r.a v r.f)
    return 7
  | instr => execute .hl instr

/-- What an operand at a displacement costs more. Reading a byte of the program as well takes
part of that time. -/
def displacedCost (idx : IndexReg) (instr : Instr) : Nat :=
  if idx = .hl then 0 else if instr = .set .mem then 5 else 8

/-- The address is worked out first, and then it does not matter where it has come from. -/
theorem execute_eq_executeAt {instr : Instr} (hmem : instr.hasMemoryOperand = true) (idx : IndexReg)
    (core : Core β) :
    execute idx instr core =
      let (a, core) := operandAddress idx core
      let (cost, after) := executeAt a instr core
      (cost + displacedCost idx instr, after) := by
  cases instr with
  | load target =>
    simp only [execute, executeAt, Registers.set8_hl]
    cases idx <;> rfl
  | store source =>
    simp only [execute, executeAt, Registers.get8_hl]
    cases idx <;> rfl
  | inc o | dec o | set o | accumulate op o =>
    cases o with
    | mem => cases idx <;> rfl
    | reg => cases hmem
  | _ => cases hmem

theorem execute_hl {instr : Instr} (hmem : instr.hasMemoryOperand = true) (core : Core β) :
    execute .hl instr core = executeAt core.regs.hl instr core := execute_eq_executeAt hmem .hl core

theorem execute_displaced {instr : Instr} (hmem : instr.hasMemoryOperand = true) {idx : IndexReg}
    (hidx : idx ≠ .hl) (core : Core β) :
    execute idx instr core =
      let (d, bus) := Bus.read core.bus core.regs.pc
      let a := core.regs.index idx + d.toInt8.toInt16.toUInt16
      let displaced : Core β := ⟨{ core.regs with pc := core.regs.pc + 1, wz := a }, core.shadow, bus⟩
      let (cost, after) := executeAt a instr displaced
      (cost + (if instr = .set .mem then 5 else 8), after) := by
  rw [execute_eq_executeAt hmem]
  simp only [← signExtend_eq]
  cases idx with
  | hl => exact absurd rfl hidx
  | ix | iy => rfl

/-- Cycles with one place in memory and no other. -/
structure OnlyAt (a : UInt16) (cycles : List Cycle) : Prop where
  some : cycles ≠ []
  same : ∀ cycle ∈ cycles, cycle = .read a ∨ ∃ v, cycle = .write a v

theorem onlyAt_read (a : UInt16) : OnlyAt a [.read a] := ⟨nofun, by simp⟩

theorem onlyAt_write (a : UInt16) (v : UInt8) : OnlyAt a [.write a v] := ⟨nofun, by simp⟩

theorem onlyAt_modify (a : UInt16) (v : UInt8) : OnlyAt a [.read a, .write a v] := ⟨nofun, by simp⟩

/-- The byte that is put into memory comes out of the program first. -/
def programCycles (pc : UInt16) (instr : Instr) : List Cycle :=
  if instr = .set .mem then [.read pc] else []

theorem executeAt_cycles {instr : Instr} (hmem : instr.hasMemoryOperand = true) (a : UInt16) (core : Core β) :
    ∃ data, OnlyAt a data ∧
      (executeAt a instr core).2.bus = Cycle.runAll core.bus (programCycles core.regs.pc instr ++ data) := by
  cases instr with
  | load target => exact ⟨_, onlyAt_read a, rfl⟩
  | store source => exact ⟨_, onlyAt_write a _, rfl⟩
  | inc o | dec o =>
    cases o with
    | mem => exact ⟨_, onlyAt_modify a _, rfl⟩
    | reg => cases hmem
  | set o =>
    cases o with
    | mem => exact ⟨_, onlyAt_write a _, rfl⟩
    | reg => cases hmem
  | accumulate op o =>
    cases o with
    | mem => exact ⟨_, onlyAt_read a, rfl⟩
    | reg => cases hmem
  | _ => cases hmem

theorem executeAt_keeps {instr : Instr} (hmem : instr.hasMemoryOperand = true) (a : UInt16) (core : Core β) :
    (executeAt a instr core).2.regs.ix = core.regs.ix ∧ (executeAt a instr core).2.regs.iy = core.regs.iy := by
  cases instr with
  | load target => cases target <;> exact ⟨rfl, rfl⟩
  | store source => exact ⟨rfl, rfl⟩
  | inc o | dec o | set o | accumulate op o =>
    cases o with
    | mem => exact ⟨rfl, rfl⟩
    | reg => cases hmem
  | _ => cases hmem

end Memory

/-! ## Steps -/

section Step

variable {β : Type} [Bus β]

def exchange (cpu : Cpu) (idx : IndexReg) : Cpu := { cpu with regs := cpu.regs.exchange idx }

/-- The step of an index prefix and of the opcode `op` that is fetched after it. The look at the byte
there has shown the prefix no other one. -/
structure UnderPrefix (cpu : Cpu) (bus : β) (idx : IndexReg) (op : UInt8) : Prop where
  begins : cpu.beginning = .fetch cpu.regs.pc
  index : (idx, (Bus.fetch bus cpu.regs.pc).1) ∈ [(IndexReg.ix, (0xDD : UInt8)), (.iy, 0xFD)]
  looked : ¬IsPrefix (Bus.read (Bus.fetch bus cpu.regs.pc).2 (cpu.regs.pc + 1)).1
  fetched : (Bus.fetch (Bus.read (Bus.fetch bus cpu.regs.pc).2 (cpu.regs.pc + 1)).2 (cpu.regs.pc + 1)).1 = op

/-- What a prefix does for itself: it is fetched, looks at the byte after it, and takes 4 T-states. -/
def pastPrefix (cpu : Cpu) (bus : β) : Cpu × β :=
  ({ cpu with regs := { cpu.regs with pc := cpu.regs.pc + 1 }.refresh, total := cpu.total.advance 4 },
    Cycle.runAll bus [.fetch cpu.regs.pc, .read (cpu.regs.pc + 1)])

/-- Registers and bus when the opcode after a prefix has been fetched. -/
def opcodeFetched (cpu : Cpu) (bus : β) : Core β :=
  (Exec.fetchOpcode ((cpu.pastPrefix bus).1.core (cpu.pastPrefix bus).2)).2

variable {cpu : Cpu} {bus : β} {idx : IndexReg} {op : UInt8}

theorem UnderPrefix.decode (h : UnderPrefix cpu bus idx op) :
    idx ≠ .hl ∧ Opcode.decode (Bus.fetch bus cpu.regs.pc).1 = .index idx := by
  have hindex := h.index
  simp only [List.mem_cons, Prod.mk.injEq, List.not_mem_nil, or_false] at hindex
  obtain ⟨rfl, hbyte⟩ | ⟨rfl, hbyte⟩ := hindex <;> rw [hbyte] <;> decide

/-- The step of the prefix goes on with the opcode after it, for its index register. -/
theorem UnderPrefix.step_eq (h : UnderPrefix cpu bus idx op) :
    cpu.step bus =
      let (cost, core) := executeOpcode idx (.decode op) (cpu.opcodeFetched bus)
      cpu.after (4 + cost, core) := by
  let core := (Exec.fetchOpcode (cpu.core bus)).2
  have hlook : ¬IsPrefix (lookAhead core).1 := h.looked
  have hfetched : (Exec.fetchOpcode (lookAhead core).2).1 = op := h.fetched
  have hdecode : Opcode.decode (Exec.fetchOpcode (cpu.core bus)).1 = .index idx := h.decode.2
  rw [step_eq_after h.begins]
  simp only [executeFetched, hdecode]
  rw [executeIndexed_nested idx hlook]
  dsimp only
  rw [hfetched]
  rfl

theorem UnderPrefix.begins_pastPrefix (h : UnderPrefix cpu bus idx op) :
    (cpu.pastPrefix bus).1.beginning = .fetch (cpu.regs.pc + 1) := by
  have hbegins := h.begins
  unfold beginning at *
  simp only [pastPrefix, Registers.refresh]
  grind

/-- Without its prefix, the opcode is a step of its own. -/
theorem UnderPrefix.step_pastPrefix (h : UnderPrefix cpu bus idx op) (hop : ¬IsPrefix op) :
    (cpu.pastPrefix bus).1.step (cpu.pastPrefix bus).2 =
      (cpu.pastPrefix bus).1.after (executeOpcode .hl (.decode op) (cpu.opcodeFetched bus)) :=
  step_eq_executeOpcode h.begins_pastPrefix h.fetched hop

theorem UnderPrefix.step_exchange (h : UnderPrefix cpu bus idx op) (hop : ¬IsPrefix op) :
    ((cpu.pastPrefix bus).1.exchange idx).step (cpu.pastPrefix bus).2 =
      ((cpu.pastPrefix bus).1.exchange idx).after
        (executeOpcode .hl (.decode op) ((cpu.opcodeFetched bus).exchange idx)) := by
  have hbegins : ((cpu.pastPrefix bus).1.exchange idx).beginning = .fetch (cpu.regs.pc + 1) := by
    rw [← h.begins_pastPrefix]
    cases idx <;> rfl
  cases idx <;> exact step_eq_executeOpcode hbegins h.fetched hop

theorem not_isPrefix_of_not_mem (h : op ∉ tableOpcodes) : ¬IsPrefix op := by
  simp only [tableOpcodes, List.mem_cons, List.not_mem_nil, or_false, not_or] at h
  exact not_or.mpr ⟨h.2.1, h.2.2.2⟩

theorem not_mem_tableOpcodes_of_mem : ∀ op ∈ memoryOpcodes, op ∉ tableOpcodes := by decide +kernel

theorem decode_eq_set_mem_iff (op : UInt8) : Opcode.decode op = .plain (.set .mem) ↔ op = 0x36 := by
  revert op
  exact forall_byte (by decide +kernel)

/-- The T-states of the prefix are counted with those of the opcode after it. -/
theorem after_pastPrefix (cpu : Cpu) (bus : β) (outcome : Nat × Core β) :
    cpu.after (4 + outcome.1, outcome.2) =
      let (cost, cpu', bus') := (cpu.pastPrefix bus).1.after outcome
      (4 + cost, cpu', bus') := by
  simp only [after, pastPrefix, Ticks.advance_advance]

/-- The opcode itself, once it has been fetched. -/
theorem executeOpcode_exchange (htable : op ∉ tableOpcodes) (hdehl : op ≠ 0xEB) (hgeneral : op ≠ 0xD9)
    (hmem : op ∉ memoryOpcodes) (core : Core β) :
    executeOpcode idx (.decode op) core =
      let (cost, core') := executeOpcode .hl (.decode op) (core.exchange idx)
      (cost, core'.exchange idx) := by
  obtain ⟨instr, hdecode, hinstr, hexchange⟩ := exists_decode_eq_plain htable
  have hswapped : Swapped idx (execute .hl instr) (execute idx instr : Exec β Nat) :=
    Swapped.execute idx (by simpa [hmem] using hinstr) (by simpa [hdehl, hgeneral] using hexchange)
  rw [hdecode]
  show execute idx instr core =
    let (cost, core') := execute .hl instr (core.exchange idx)
    (cost, core'.exchange idx)
  rw [hswapped core]
  simp only [Core.exchange_exchange, Prod.mk.eta]

theorem UnderPrefix.step_substituted (h : UnderPrefix cpu bus idx op) (htable : op ∉ tableOpcodes)
    (hdehl : op ≠ 0xEB) (hgeneral : op ≠ 0xD9) (hmem : op ∉ memoryOpcodes) :
    let (cost, cpu', bus') := ((cpu.pastPrefix bus).1.exchange idx).step (cpu.pastPrefix bus).2
    cpu.step bus = (4 + cost, cpu'.exchange idx, bus') := by
  have hsame : executeOpcode idx (.decode op) (cpu.opcodeFetched bus) = _ :=
    executeOpcode_exchange htable hdehl hgeneral hmem _
  rw [h.step_exchange (not_isPrefix_of_not_mem htable), h.step_eq, hsame]
  generalize executeOpcode .hl (.decode op) ((cpu.opcodeFetched bus).exchange idx) = outcome
  exact after_pastPrefix cpu bus (outcome.1, outcome.2.exchange idx)

theorem UnderPrefix.step_plain (h : UnderPrefix cpu bus idx op) (hop : op = 0xEB ∨ op = 0xD9) :
    let (cost, cpu', bus') := (cpu.pastPrefix bus).1.step (cpu.pastPrefix bus).2
    cpu.step bus = (4 + cost, cpu', bus') := by
  have hnot : ¬IsPrefix op := by rcases hop with rfl | rfl <;> decide
  have hsame : (executeOpcode idx (.decode op) : Exec β Nat) = executeOpcode .hl (.decode op) := by
    rcases hop with rfl | rfl
    · rw [show Opcode.decode 0xEB = .plain .exchangeDEHL by decide]
      rfl
    · rw [show Opcode.decode 0xD9 = .plain .exchangeGeneral by decide]
      rfl
  rw [h.step_pastPrefix hnot, h.step_eq, hsame]
  exact after_pastPrefix cpu bus _

theorem pc_opcodeFetched (cpu : Cpu) (bus : β) : (cpu.opcodeFetched bus).regs.pc = cpu.regs.pc + 2 :=
  UInt16.add_assoc cpu.regs.pc 1 1

theorem index_opcodeFetched (cpu : Cpu) (bus : β) (idx : IndexReg) :
    (cpu.opcodeFetched bus).regs.index idx = cpu.regs.index idx := by
  cases idx <;> rfl

theorem UnderPrefix.step_displaced (h : UnderPrefix cpu bus idx op) (hop : op ∈ memoryOpcodes) :
    ∃ instr, Opcode.decode op = .plain instr ∧
      (cpu.pastPrefix bus).1.step (cpu.pastPrefix bus).2 =
        (cpu.pastPrefix bus).1.after (executeAt cpu.regs.hl instr (cpu.opcodeFetched bus)) ∧
      let (d, bus2) := Bus.read (cpu.opcodeFetched bus).bus (cpu.regs.pc + 2)
      let a := cpu.regs.index idx + d.toInt8.toInt16.toUInt16
      let displaced : Core β :=
        ⟨{ (cpu.opcodeFetched bus).regs with pc := cpu.regs.pc + 3, wz := a }, false, bus2⟩
      let (cost, core) := executeAt a instr displaced
      cpu.step bus = cpu.after (4 + (cost + if op = 0x36 then 5 else 8), core) ∧
      (∃ data, OnlyAt a data ∧ core.bus = Cycle.runAll bus ([.fetch cpu.regs.pc,
        .read (cpu.regs.pc + 1), .fetch (cpu.regs.pc + 1), .read (cpu.regs.pc + 2)] ++
          (if op = 0x36 then [.read (cpu.regs.pc + 3)] else []) ++ data)) ∧
      core.regs.ix = cpu.regs.ix ∧ core.regs.iy = cpu.regs.iy := by
  have htable := not_mem_tableOpcodes_of_mem op hop
  obtain ⟨instr, hdecode, hinstr, -⟩ := exists_decode_eq_plain htable
  have hmem : instr.hasMemoryOperand = true := by simpa [hop] using hinstr
  have hset : instr = .set .mem ↔ op = 0x36 := by
    rw [← decode_eq_set_mem_iff op, hdecode, Opcode.plain.injEq]
  refine ⟨instr, hdecode, ?_, ?_⟩
  · rw [h.step_pastPrefix (not_isPrefix_of_not_mem htable), hdecode]
    exact congrArg (cpu.pastPrefix bus).1.after (execute_hl hmem (cpu.opcodeFetched bus))
  · -- The displacement is read before anything else, and then the instruction has its address.
    have hstep := h.step_eq
    rw [hdecode, executeOpcode, execute_displaced hmem h.decode.1, pc_opcodeFetched,
      index_opcodeFetched] at hstep
    rcases hread : Bus.read (cpu.opcodeFetched bus).bus (cpu.regs.pc + 2) with ⟨d, bus2⟩
    have hbus2 : bus2 = Cycle.runAll bus [.fetch cpu.regs.pc, .read (cpu.regs.pc + 1),
        .fetch (cpu.regs.pc + 1), .read (cpu.regs.pc + 2)] := (congrArg Prod.snd hread).symm
    have hpc : cpu.regs.pc + 2 + 1 = cpu.regs.pc + 3 := UInt16.add_assoc cpu.regs.pc 2 1
    simp only [hread, hset, hpc] at hstep
    let a := cpu.regs.index idx + d.toInt8.toInt16.toUInt16
    let displaced : Core β :=
      ⟨{ (cpu.opcodeFetched bus).regs with pc := cpu.regs.pc + 3, wz := a }, false, bus2⟩
    obtain ⟨data, hdata, hcycles⟩ := executeAt_cycles hmem a displaced
    refine ⟨hstep, ⟨data, hdata, hcycles.trans ?_⟩, executeAt_keeps hmem a displaced⟩
    show Cycle.runAll bus2 (programCycles (cpu.regs.pc + 3) instr ++ data) = _
    rw [hbus2, programCycles, List.append_assoc]
    simp only [hset]
    rfl

/-- **An index prefix is register substitution.** What the prefix does for itself is told apart
first: 4 T-states, its fetch, and its look at the byte after it. Then
* an opcode without an operand in memory does what it does without the prefix when HL and the index
  register are exchanged before and after, with the same bus cycles and T-states: by itself, from
  any registers and bus, and as the step that comes after the prefix;
* the two exchanges with HL do exactly what they do without the prefix;
* an opcode with an operand in memory does at the signed displacement what it does at HL without the
  prefix, H and L being the plain ones. It has bus cycles with that address and with the program and
  no others, and leaves the index registers alone. -/
theorem step_underPrefix (h : UnderPrefix cpu bus idx op) :
    let (cpu1, bus1) := cpu.pastPrefix bus
    (op ∉ tableOpcodes → op ≠ 0xEB → op ≠ 0xD9 → op ∉ memoryOpcodes →
      (∀ core : Core β, executeOpcode idx (.decode op) core =
        let (cost, core') := executeOpcode .hl (.decode op) (core.exchange idx)
        (cost, core'.exchange idx)) ∧
      let (cost, cpu', bus') := (cpu1.exchange idx).step bus1
      cpu.step bus = (4 + cost, cpu'.exchange idx, bus')) ∧
    (op = 0xEB ∨ op = 0xD9 →
      let (cost, cpu', bus') := cpu1.step bus1
      cpu.step bus = (4 + cost, cpu', bus')) ∧
    (op ∈ memoryOpcodes → ∃ instr, Opcode.decode op = .plain instr ∧
      cpu1.step bus1 = cpu1.after (executeAt cpu.regs.hl instr (cpu.opcodeFetched bus)) ∧
      let (d, bus2) := Bus.read (cpu.opcodeFetched bus).bus (cpu.regs.pc + 2)
      let a := cpu.regs.index idx + d.toInt8.toInt16.toUInt16
      let displaced : Core β :=
        ⟨{ (cpu.opcodeFetched bus).regs with pc := cpu.regs.pc + 3, wz := a }, false, bus2⟩
      let (cost, core) := executeAt a instr displaced
      cpu.step bus = cpu.after (4 + (cost + if op = 0x36 then 5 else 8), core) ∧
      (∃ data, OnlyAt a data ∧ core.bus = Cycle.runAll bus ([.fetch cpu.regs.pc,
        .read (cpu.regs.pc + 1), .fetch (cpu.regs.pc + 1), .read (cpu.regs.pc + 2)] ++
          (if op = 0x36 then [.read (cpu.regs.pc + 3)] else []) ++ data)) ∧
      core.regs.ix = cpu.regs.ix ∧ core.regs.iy = cpu.regs.iy) :=
  ⟨fun htable hdehl hgeneral hmem => ⟨executeOpcode_exchange htable hdehl hgeneral hmem,
    h.step_substituted htable hdehl hgeneral hmem⟩, h.step_plain, h.step_displaced⟩

end Step

/-- Memory begins with an index prefix, an opcode and a displacement. -/
def prefixedOpcode (index op d : UInt8) : FlatBus := ((FlatBus.empty.poke 0 index).poke 1 op).poke 2 d

theorem peek_prefixedOpcode (index op d : UInt8) :
    (prefixedOpcode index op d).peek 0 = index ∧ (prefixedOpcode index op d).peek 1 = op ∧
    (prefixedOpcode index op d).peek 2 = d := by
  refine ⟨?_, ?_, FlatBus.peek_poke_self ..⟩
  · rw [prefixedOpcode, FlatBus.peek_poke_other _ _ (by decide), FlatBus.peek_poke_other _ _ (by decide),
      FlatBus.peek_poke_self]
  · rw [prefixedOpcode, FlatBus.peek_poke_other _ _ (by decide), FlatBus.peek_poke_self]

/-- The processor at the start of its memory, with something in the index registers. -/
def indexed : Cpu := { initial with regs := { Registers.initial with ix := 0x1234, iy := 2 } }

theorem underPrefix_prefixedOpcode {idx : IndexReg} {index op : UInt8} (d : UInt8)
    (hindex : (idx, index) ∈ [(IndexReg.ix, (0xDD : UInt8)), (.iy, 0xFD)]) (hop : ¬IsPrefix op) :
    UnderPrefix indexed (prefixedOpcode index op d) idx op where
  begins := rfl
  index := by
    show (idx, (prefixedOpcode index op d).peek 0) ∈ _
    rwa [(peek_prefixedOpcode index op d).1]
  looked := by
    show ¬IsPrefix ((prefixedOpcode index op d).peek 1)
    rwa [(peek_prefixedOpcode index op d).2.1]
  fetched := (peek_prefixedOpcode index op d).2.1

/-- `LD A,IXH` takes the high byte of IX, `EX DE,HL` after a prefix leaves IX alone, and `LD H,(IY-2)`
goes to H itself. -/
theorem step_underPrefix_indexed :
    (UnderPrefix indexed (prefixedOpcode 0xDD 0x7C 0) .ix 0x7C ∧
      (indexed.step (prefixedOpcode 0xDD 0x7C 0)).1 = 8 ∧
      (indexed.step (prefixedOpcode 0xDD 0x7C 0)).2.1.regs.a = 0x12) ∧
    (UnderPrefix indexed (prefixedOpcode 0xDD 0xEB 0) .ix 0xEB ∧
      (indexed.step (prefixedOpcode 0xDD 0xEB 0)).2.1.regs.ix = 0x1234) ∧
    UnderPrefix indexed (prefixedOpcode 0xFD 0x66 0xFE) .iy 0x66 ∧
      (indexed.step (prefixedOpcode 0xFD 0x66 0xFE)).2.1.regs.h = 0xFD ∧
      (indexed.step (prefixedOpcode 0xFD 0x66 0xFE)).2.1.regs.iy = 2 := by
  have hhigh : UnderPrefix indexed (prefixedOpcode 0xDD 0x7C 0) .ix 0x7C :=
    underPrefix_prefixedOpcode _ (by decide) (by decide)
  have hexchange : UnderPrefix indexed (prefixedOpcode 0xDD 0xEB 0) .ix 0xEB :=
    underPrefix_prefixedOpcode _ (by decide) (by decide)
  have hload : UnderPrefix indexed (prefixedOpcode 0xFD 0x66 0xFE) .iy 0x66 :=
    underPrefix_prefixedOpcode _ (by decide) (by decide)
  refine ⟨⟨hhigh, ?_⟩, ⟨hexchange, ?_⟩, hload, ?_⟩
  · have hstep : indexed.step (prefixedOpcode 0xDD 0x7C 0) =
        let (cost, cpu', bus') := ((indexed.pastPrefix (prefixedOpcode 0xDD 0x7C 0)).1.exchange .ix).step
          (indexed.pastPrefix (prefixedOpcode 0xDD 0x7C 0)).2
        (4 + cost, cpu'.exchange .ix, bus') :=
      ((step_underPrefix hhigh).1 (by decide) (by decide) (by decide) (by decide)).2
    rw [hstep, hhigh.step_exchange (by decide), show Opcode.decode 0x7C = .plain (.copy .a .h) by decide]
    exact ⟨rfl, rfl⟩
  · have hstep : indexed.step (prefixedOpcode 0xDD 0xEB 0) =
        let (cost, cpu', bus') := (indexed.pastPrefix (prefixedOpcode 0xDD 0xEB 0)).1.step
          (indexed.pastPrefix (prefixedOpcode 0xDD 0xEB 0)).2
        (4 + cost, cpu', bus') := (step_underPrefix hexchange).2.1 (.inl rfl)
    rw [hstep, hexchange.step_pastPrefix (by decide), show Opcode.decode 0xEB = .plain .exchangeDEHL by decide]
    rfl
  · obtain ⟨hindex, -, hdisplacement⟩ := peek_prefixedOpcode 0xFD 0x66 0xFE
    obtain ⟨instr, hdecode, -, hstep, -, -, hiy⟩ := (step_underPrefix hload).2.2 (by decide)
    obtain rfl : instr = .load .h := by
      rw [show Opcode.decode 0x66 = .plain (.load .h) by decide, Opcode.plain.injEq] at hdecode
      exact hdecode.symm
    rw [hstep]
    refine ⟨?_, hiy⟩
    show (prefixedOpcode 0xFD 0x66 0xFE).peek
      (2 + ((prefixedOpcode 0xFD 0x66 0xFE).peek 2).toInt8.toInt16.toUInt16) = 0xFD
    rw [hdisplacement]
    exact hindex

end Cpu

end AmstradCpc
