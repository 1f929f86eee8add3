/-
The memory chips as a store of cells, and the cells that the processor reads and writes at an
address. A cell is a place in a chip, whatever the map is; the map only says which cell an
address stands for. A write changes one cell (`byte?_writeMemory`).
-/
import AmstradCpc.Board

namespace AmstradCpc

/-- A place for one byte in the memory chips. -/
structure Cell where
  chip : Source
  offset : Fin bankSize
  deriving DecidableEq

theorem Bank.get_set (bank : Bank) (written read : Fin bankSize) (v : UInt8) :
    (bank.set written v written.isLt).get read read.isLt =
      if read = written then v else bank.get read read.isLt := by
  by_cases h : read = written
  · subst h
    rw [if_pos rfl]
    exact Block.get_set_self ..
  · rw [if_neg h]
    exact Block.get_set_other _ _ _ _ fun hsame => h (Fin.ext hsame.symm)

namespace Memory

/-- A chip, if there is one. -/
def chip? (m : Memory) : Source → Option Bank
  | .ram bank => m.ram[bank]?
  | .lowerRom => some m.lowerRom
  | .upperRom => some m.upperRom
  | .expansion slot => m.expansion slot

/-- The byte in a cell, if there is such a cell. -/
def byte? (m : Memory) (cell : Cell) : Option UInt8 :=
  (m.chip? cell.chip).map fun chip => chip.get cell.offset cell.offset.isLt

/-- Nothing has to stand in for a chip that is there. -/
theorem chip?_eq_bank {m : Memory} {chip : Source} (h : (m.chip? chip).isSome) :
    m.chip? chip = some (Pager.bank m chip) := by
  cases chip with
  | ram bank =>
    obtain ⟨there, hthere⟩ := Option.isSome_iff_exists.mp h
    have hbank : m.ram[bank]? = some there := hthere
    rw [hthere, Pager.bank, hbank, Option.getD_some]
  | lowerRom => rfl
  | upperRom => rfl
  | expansion slot =>
    obtain ⟨there, hthere⟩ := Option.isSome_iff_exists.mp h
    have hslot : m.expansion slot = some there := hthere
    rw [hthere, Pager.bank, hslot, Option.getD_some]

/-- A cell of another chip keeps its byte, and so does another cell of the same one. -/
theorem byte?_modifyBank (m : Memory) (bank : Nat) (offset : Fin bankSize) (v : UInt8) (cell : Cell) :
    (m.modifyBank bank fun chip => chip.set offset v offset.isLt).byte? cell =
      if cell = ⟨.ram bank, offset⟩ then (m.byte? cell).map fun _ => v else m.byte? cell := by
  obtain ⟨chip, place⟩ := cell
  cases chip with
  | ram other =>
    simp only [byte?, chip?, modifyBank, Array.getElem?_modify, Cell.mk.injEq, Source.ram.injEq,
      eq_comm (a := bank)]
    by_cases hbank : other = bank
    · rw [if_pos hbank, Option.map_map, Option.map_map]
      by_cases hplace : place = offset
      · rw [if_pos ⟨hbank, hplace⟩]
        congr 1
        funext chip
        exact (chip.get_set ..).trans (if_pos hplace)
      · rw [if_neg fun h => hplace h.2]
        congr 1
        funext chip
        exact (chip.get_set ..).trans (if_neg hplace)
    · rw [if_neg hbank, if_neg fun h => hbank h.1]
  | lowerRom => rfl
  | upperRom => rfl
  | expansion slot => rfl

end Memory

namespace Board

/-- The cell that is read at an address. -/
def seenAt (b : Board) (address : UInt16) : Cell :=
  ⟨b.pager.reads.get (windowOf address), bankOffset address⟩

/-- Where a write to an address goes: the bank, and the place in it. -/
def target (b : Board) (address : UInt16) : Nat × Fin bankSize :=
  (b.pager.writes.get (windowOf address), bankOffset address)

theorem writeMemory_eq (b : Board) (address : UInt16) (v : UInt8) :
    b.writeMemory address v = { b with
      memory := b.memory.modifyBank (b.target address).1 fun bank =>
        bank.set (b.target address).2 v (b.target address).2.isLt } := rfl

/-- The cell that is written at an address. -/
def writtenAt (b : Board) (address : UInt16) : Cell := ⟨.ram (b.target address).1, (b.target address).2⟩

/-- A write changes the byte in the cell that its address stands for, and no other. -/
theorem byte?_writeMemory (b : Board) (address : UInt16) (v : UInt8) (cell : Cell) :
    (b.writeMemory address v).memory.byte? cell =
      if cell = b.writtenAt address then (b.memory.byte? cell).map fun _ => v else b.memory.byte? cell := by
  rw [writeMemory_eq]
  exact b.memory.byte?_modifyBank (b.target address).1 (b.target address).2 v cell

/-- The ROM that lies over the RAM of a window, if there is one: the firmware over the lowest, and
over the highest the selected expansion, or BASIC where there is none. -/
def romOver (b : Board) (window : Fin 4) : Option Source :=
  if window = 0 ∧ b.gateArray.lowerRomEnabled then some .lowerRom
  else if window = 3 ∧ b.gateArray.upperRomEnabled then
    if (b.memory.expansion b.pager.romSelect).isSome then some (.expansion b.pager.romSelect)
    else some .upperRom
  else none

/-- It is there, and it is no RAM. -/
theorem rom_of_romOver {b : Board} {window : Fin 4} {chip : Source} (h : b.romOver window = some chip) :
    (b.memory.chip? chip).isSome ∧ ∀ bank, chip ≠ .ram bank := by
  rw [romOver] at h
  split at h
  · cases h
    exact ⟨rfl, nofun⟩
  · split at h
    · split at h
      next hexpansion =>
        cases h
        exact ⟨hexpansion, nofun⟩
      next =>
        cases h
        exact ⟨rfl, nofun⟩
    · cases h

end Board

end AmstradCpc
