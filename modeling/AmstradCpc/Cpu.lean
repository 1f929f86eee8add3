/-
The processor: its registers, the latches of its interrupt lines, and the clock
that grants it time. A step runs one instruction or accepts one interrupt, and
answers how many T-states that took.
-/
import AmstradCpc.Ticks
import AmstradCpc.Cpu.Execute
import AmstradCpc.Cpu.Bits
import AmstradCpc.Cpu.ExtendedSet

namespace AmstradCpc

open Cpu (Registers Core Exec Opcode Extended)

structure Cpu where
  regs : Registers
  /-- The maskable interrupt has been raised and not yet been accepted. -/
  intLatch : Bool
  nmiLatch : Bool
  /-- The last instruction enabled interrupts. -/
  shadow : Bool
  /-- T-states spent since power on. -/
  total : Ticks
  /-- T-states granted and not yet spent; below zero after an instruction that
  took more than was left. -/
  budget : Int32
  deriving Inhabited

namespace Cpu

/-! ## One step -/

section Step

variable {β : Type} [Bus β]

open Exec

/-- What an opcode byte stands for once it is known which register plays HL.
An index prefix has no effect here: it is dealt with before. -/
def executeOpcode (idx : IndexReg) : Opcode → Exec β Nat
  | .plain i => execute idx i
  | .bits => do
    if idx = .hl then
      let opcode ← fetchOpcode
      executeBits opcode
    else executeIndexedBits idx
  | .extended => do
    let opcode ← fetchOpcode
    executeExtended (.decode opcode)
  | .index _ => return 4

/-- A prefix before another prefix is a step of its own, after which the
program goes on with the second one. -/
def executeIndexed (idx : IndexReg) : Exec β Nat := do
  let next ← readByte (← registers).pc
  if next = 0xDD ∨ next = 0xFD then return 4
  let opcode ← fetchOpcode
  return 4 + (← executeOpcode idx (.decode opcode))

/-- One whole instruction. -/
def executeNext : Exec β Nat := do
  let opcode ← fetchOpcode
  match Opcode.decode opcode with
  | .index idx => executeIndexed idx
  | first => executeOpcode .hl first

/-- A non-maskable interrupt keeps `iff2`, from which the return restores. -/
def acceptNmi : Exec β Nat := do
  modifyRegs fun r => { r.refresh with halted := false, iff1 := false }
  pushWord (← registers).pc
  jumpAbsolute 0x0066
  return 11

/-- In mode 2 the interrupting device chooses an entry of a table of addresses;
in the other modes every interrupt goes to one place. -/
def acceptInt : Exec β Nat := do
  modifyRegs fun r => { r.refresh with halted := false, iff1 := false, iff2 := false }
  let data ← acknowledge
  pushWord (← registers).pc
  let r ← registers
  if r.im = 2 then
    jumpAbsolute (← readWord (joinBytes r.i (data &&& 0xFE)))
    return 19
  else
    jumpAbsolute 0x0038
    return 13

/-- A halted processor keeps refreshing memory and does nothing else. -/
def idle : Exec β Nat := do
  modifyRegs (·.refresh)
  return 4

/-- Runs a piece of work on the registers and the bus, counting its T-states. -/
@[inline] def spend (cpu : Cpu) (bus : β) (shadow : Bool) (work : Exec β Nat) : Nat × Cpu × β :=
  let (cost, core) := work ⟨cpu.regs, shadow, bus⟩
  (cost, { cpu with regs := core.regs, shadow := core.shadow, total := cpu.total.advance cost },
    core.bus)

/-- Runs one instruction, or accepts one pending interrupt. -/
def step (cpu : Cpu) (bus : β) : Nat × Cpu × β :=
  if cpu.nmiLatch then spend { cpu with nmiLatch := false } bus cpu.shadow acceptNmi
  else if cpu.intLatch && cpu.regs.iff1 && !cpu.shadow then
    spend { cpu with intLatch := false } bus cpu.shadow acceptInt
  else if cpu.regs.halted then spend cpu bus false idle
  else spend cpu bus false executeNext

/-- Steps while time is left, at most `fuel` of them. -/
def runBudget (fuel : Nat) (cpu : Cpu) (bus : β) : Cpu × β :=
  match fuel with
  | 0 => (cpu, bus)
  | fuel + 1 =>
    if 0 < cpu.budget then
      let (cost, cpu, bus) := cpu.step bus
      runBudget fuel { cpu with budget := cpu.budget - .ofNat cost } bus
    else (cpu, bus)

/-- With the time left, a grant is a number that the budget can be. -/
def canGrant (cpu : Cpu) (quantum : UInt32) : Bool :=
  let sum := cpu.budget.toInt + quantum.toInt32.toInt
  Int32.minValue.toInt ≤ sum && sum ≤ Int32.maxValue.toInt

/-- Grants `quantum` T-states and runs whole instructions until they are spent.
What the last one takes too much is owed to the next grant. Every step takes
time, so there are no more of them than T-states. -/
def clock (cpu : Cpu) (bus : β) (quantum : UInt32) : Cpu × β :=
  let cpu := { cpu with budget := cpu.budget + quantum.toInt32 }
  cpu.runBudget cpu.budget.toNatClampNeg bus

/-- Takes the program counter from the stack, as a return does. -/
def popPC (cpu : Cpu) (bus : β) : Cpu × β :=
  let (pc, core) := (popWord : Exec β UInt16) ⟨cpu.regs, cpu.shadow, bus⟩
  ({ cpu with regs := { core.regs with pc } }, core.bus)

end Step

/-! ## Lines and reset -/

/-- Raises the maskable interrupt; it stays raised until it is accepted. -/
@[inline] def raiseInt (cpu : Cpu) : Cpu := { cpu with intLatch := true }

def raiseNmi (cpu : Cpu) : Cpu := { cpu with nmiLatch := true }

/-- Drops a maskable interrupt that has not been accepted. -/
def clearInt (cpu : Cpu) : Cpu := { cpu with intLatch := false }

/-- A reset clears everything but the time spent. -/
def reset (cpu : Cpu) : Cpu :=
  { cpu with regs := .initial, intLatch := false, nmiLatch := false, shadow := false, budget := 0 }

def initial : Cpu where
  regs := .initial
  intLatch := false
  nmiLatch := false
  shadow := false
  total := .zero
  budget := 0

end Cpu

end AmstradCpc
