/-
The banked memory as a flat one. Over any row of bus cycles each cell of RAM holds what the last
write to it put there, whatever was mapped where in the meantime, and ROMs hold what they held
(`byte?_runAll`). What is read is the byte in the cell that the map names at that time.
-/
import AmstradCpc.Proofs.Board.Windows

namespace AmstradCpc

namespace Cycle

/-- What a cycle puts into a cell, if it is a write to an address that stands for that cell. -/
def written? (b : Board) (cell : Cell) : Cycle → Option UInt8
  | .write address v => if cell = b.writtenAt address then some v else none
  | _ => none

/-- What the last write to a cell put there. Which cell a write is to depends on the map at the
time of the write. -/
def lastWrite (bench : Bench) (cell : Cell) : List Cycle → Option UInt8
  | [] => none
  | cycle :: cycles => (lastWrite (cycle.run bench).2 cell cycles).or (cycle.written? bench.board cell)

/-- The byte that a flat memory has in a cell after a row of cycles. -/
def flatByte? (bench : Bench) (cycles : List Cycle) (cell : Cell) : Option UInt8 :=
  (bench.board.memory.byte? cell).map fun initial => (lastWrite bench cell cycles).getD initial

/-- The address that a cycle takes a byte of memory from. -/
def reads? : Cycle → Option UInt16
  | .fetch address | .read address => some address
  | _ => none

variable {bench : Bench}

/-! ## One cycle -/

theorem byte?_run (bench : Bench) (cycle : Cycle) (cell : Cell) :
    (cycle.run bench).2.board.memory.byte? cell =
      (bench.board.memory.byte? cell).map fun old => (cycle.written? bench.board cell).getD old := by
  have hkept : ∀ {memory : Memory}, memory = bench.board.memory →
      memory.byte? cell = (bench.board.memory.byte? cell).map fun old => (none : Option UInt8).getD old := by
    rintro _ rfl
    exact (Option.map_id' ..).symm
  cases cycle with
  | fetch address => exact hkept rfl
  | read address => exact hkept rfl
  | write address v =>
    refine (bench.board.byte?_writeMemory address v cell).trans ?_
    rw [written?]
    split
    · rfl
    · exact hkept rfl
  | acknowledge => exact hkept rfl
  | input port => exact hkept (bench.board.memory_input port)
  | output port v => exact hkept (bench.board.memory_output port v)

/-- Writes go to RAM. -/
theorem written?_eq_none {b : Board} {cell : Cell} (h : ∀ bank, cell.chip ≠ .ram bank) (cycle : Cycle) :
    cycle.written? b cell = none := by
  cases cycle with
  | write address v => exact if_neg fun hcell => h _ (congrArg Cell.chip hcell)
  | _ => rfl

theorem run_of_reads? {cycle : Cycle} {address : UInt16} (h : cycle.reads? = some address) (bench : Bench) :
    cycle.run bench = (some (bench.board.peek address), bench) := by
  cases cycle with
  | fetch _ | read _ =>
    cases h
    rfl
  | _ => cases h

/-! ## A row of them -/

theorem byte?_runAll (bench : Bench) (cycles : List Cycle) (cell : Cell) :
    (runAll bench cycles).board.memory.byte? cell = flatByte? bench cycles cell := by
  induction cycles generalizing bench with
  | nil => exact (Option.map_id' ..).symm
  | cons cycle cycles ih =>
    rw [runAll_cons, ih, flatByte?, flatByte?, byte?_run, Option.map_map]
    congr 1
    funext initial
    rw [lastWrite, Option.getD_or]
    rfl

theorem lastWrite_eq_none {cell : Cell} (h : ∀ bank, cell.chip ≠ .ram bank) (cycles : List Cycle) :
    lastWrite bench cell cycles = none := by
  induction cycles generalizing bench with
  | nil => rfl
  | cons cycle cycles ih => rw [lastWrite, ih, written?_eq_none h, Option.or_none]

end Cycle

namespace Board

variable {bench : Bench}

/-- **Banked memory is flat memory, and the map only says where one looks.** From every board that a
machine with at least four banks comes to, and over every row of cycles: each cell of RAM ends with
what the last write to it put there, or else as it began; no byte of a ROM changes; and each
cycle that takes a byte from memory gets the one that flat memory has, at that time, in the cell
that the map names then, which is in the ROM over the window if there is one and otherwise
in the bank that is written there. -/
theorem memory_flat {memory : Memory} {signals : Signals} {hasDisc : Bool} (henough : 4 ≤ memory.ram.size)
    (hreached : Reached KeepsMap (.initial memory signals hasDisc) bench.board) (cycles : List Cycle) :
    (∀ cell, (Cycle.runAll bench cycles).board.memory.byte? cell = Cycle.flatByte? bench cycles cell) ∧
    (∀ cell, (∀ bank, cell.chip ≠ .ram bank) →
      (Cycle.runAll bench cycles).board.memory.byte? cell = bench.board.memory.byte? cell) ∧
    ∀ before cycle later address, cycles = before ++ cycle :: later → cycle.reads? = some address →
      let now := (Cycle.runAll bench before).board
      let cell : Cell :=
        ⟨(now.romOver (windowOf address)).getD (.ram (now.pager.writes.get (windowOf address))),
          bankOffset address⟩
      ∃ v, (cycle.run (Cycle.runAll bench before)).1 = some v ∧ Cycle.flatByte? bench before cell = some v := by
  refine ⟨Cycle.byte?_runAll bench cycles, ?_, ?_⟩
  · intro cell hrom
    rw [Cycle.byte?_runAll, Cycle.flatByte?, Cycle.lastWrite_eq_none hrom]
    exact Option.map_id' ..
  · intro before cycle later address _ hreads
    have hmapped := (hreached.runAll before).mapped (mapped_initial henough signals hasDisc)
    refine ⟨_, congrArg Prod.fst (Cycle.run_of_reads? hreads _), ?_⟩
    rw [← Cycle.byte?_runAll, ← hmapped.byte?_seenAt address, seenAt, hmapped.reads_eq]

/-- A byte is written while its bank is in the second window, and then the bank is mapped into the
first one. -/
def remapped : List Cycle :=
  [.output 0x7F00 0xC4, .write 0x4123 0x55, .output 0x7F00 0xC2, .output 0x7F00 0x8C]

/-- It is found there. -/
theorem memory_flat_remapped :
    4 ≤ newBench.board.memory.ram.size ∧ Reached KeepsMap newBench.board newBench.board ∧
    ((Cycle.read 0x0123).run (Cycle.runAll newBench remapped)).1 = some 0x55 := by
  have hreached : Reached KeepsMap newBench.board newBench.board := .start
  obtain ⟨-, -, hreads⟩ := memory_flat (by decide) hreached (remapped ++ [.read 0x0123])
  obtain ⟨v, hanswer, hflat⟩ := hreads remapped (.read 0x0123) [] 0x0123 rfl rfl
  refine ⟨by decide, hreached, ?_⟩
  rw [hanswer, ← hflat]
  decide +kernel

end Board

end AmstradCpc
