/-
The memory map over a row of accesses. Every access that changes what the map is worked out
from works it out anew (`OfMap` says what a property needs in order to be kept by all of
them), so the map is at all times the one that working it out would give (`Follows`). What the
map was before still shows in it where a RAM configuration asks for more memory than there is.
-/
import AmstradCpc.Board

namespace AmstradCpc

namespace Pager

theorem writesFor_select (p : Pager) (m : Memory) (control : UInt8) :
    (p.select m control).writesFor m.ram.size = (p.select m control).writes := by
  simp only [select, writesFor]
  split
  · rfl
  · split <;> rfl

/-- A map that has just been worked out is not changed by working it out again. -/
theorem select_select (p : Pager) (m : Memory) (control : UInt8) :
    (p.select m control).select m control = p.select m control := by
  have h := writesFor_select p m control
  rw [select, h]
  rfl

end Pager

/-- What a write to the gate array comes to for the rest of the machine. -/
theorem GateArray.write_cases (g : GateArray) (v : UInt8) :
    (∃ g', g'.control = g.control ∧ g.write v = (g', .none)) ∨
      g.write v = (g.setControl v, .remap) ∨ g.write v = (g, .configureRam v) := by
  simp only [write]
  split
  · exact .inl ⟨g.setPen v, rfl, rfl⟩
  · exact .inl ⟨g.setInk v, rfl, rfl⟩
  · exact .inr (.inl rfl)
  · exact .inr (.inr rfl)

namespace Board

/-- A write of the processor. -/
inductive Access where
  | memory (address : UInt16) (v : UInt8)
  | port (port : UInt16) (v : UInt8)

def perform (b : Board) : Access → Board
  | .memory address v => b.writeMemory address v
  | .port port v => b.output port v

def performAll (b : Board) (accesses : List Access) : Board := accesses.foldl perform b

/-- The board has the memory chips of `first`, and the map follows from what they and the
registers hold. -/
structure Follows (first b : Board) : Prop where
  map : b.pager.select b.memory b.gateArray.control = b.pager
  control : b.gateArray.control < 32
  ramConfig : b.pager.ramConfig < 64
  memory : ∀ ram, { b.memory with ram } = { first.memory with ram }
  size : b.memory.ram.size = first.memory.ram.size

variable {first b b' : Board}

/-- The map follows from nothing else. -/
theorem Follows.of_eq (h : Follows first b) (hmemory : b'.memory = b.memory) (hpager : b'.pager = b.pager)
    (hcontrol : b'.gateArray.control = b.gateArray.control) : Follows first b' := by
  obtain ⟨hmap, hcontrol', hramConfig, hfirst, hsize⟩ := h
  rw [← hmemory] at hmap hfirst hsize
  rw [← hpager] at hmap hramConfig
  rw [← hcontrol] at hmap hcontrol'
  exact ⟨hmap, hcontrol', hramConfig, hfirst, hsize⟩

/-- Working the map out anew makes up for a change to what it is worked out from. -/
theorem Follows.remap (h : Follows first b) (hmemory : b'.memory = b.memory)
    (hcontrol : b'.gateArray.control < 32) (hramConfig : b'.pager.ramConfig < 64) : Follows first b'.remap :=
  ⟨Pager.select_select .., hcontrol, hramConfig, hmemory ▸ h.memory, hmemory ▸ h.size⟩

/-! ## Accesses -/

theorem size_ram_writeMemory (b : Board) (address : UInt16) (v : UInt8) :
    (b.writeMemory address v).memory.ram.size = b.memory.ram.size := Memory.size_writeRam ..

/-- The map does not depend on what is in the memory. -/
theorem select_writeMemory (b : Board) (address : UInt16) (v : UInt8) :
    b.pager.select (b.writeMemory address v).memory b.gateArray.control =
      b.pager.select b.memory b.gateArray.control := by
  rw [Pager.select, Pager.select, size_ram_writeMemory]
  rfl

theorem Follows.writeMemory (h : Follows first b) (address : UInt16) (v : UInt8) :
    Follows first (b.writeMemory address v) := by
  have hmap := b.select_writeMemory address v
  have hsize := b.size_ram_writeMemory address v
  exact ⟨hmap.trans h.map, h.control, h.ramConfig, h.memory, hsize.trans h.size⟩

theorem and_lt_of_lt {bits limit : UInt8} (v : UInt8) (h : bits < limit) : v &&& bits < limit := by
  rw [UInt8.lt_iff_toNat_lt, UInt8.toNat_and]
  exact Nat.lt_of_le_of_lt Nat.and_le_right h

/-- A property that a board has because of its memory, its map, and what the map is worked out
from, and that it keeps when the map is worked out anew. -/
structure OfMap (P : Board → Prop) : Prop where
  same : ∀ {b b' : Board}, P b → b'.memory = b.memory → b'.pager = b.pager →
    b'.gateArray.control = b.gateArray.control → P b'
  remapped : ∀ {b b' : Board}, P b → b'.memory = b.memory → b'.pager.writes = b.pager.writes →
    (b'.gateArray.control = b.gateArray.control ∨ b'.gateArray.control < 32) →
    (b'.pager.ramConfig = b.pager.ramConfig ∨ b'.pager.ramConfig < 64) → P b'.remap

namespace OfMap

variable {P : Board → Prop}

theorem writeGateArray (hP : OfMap P) (v : UInt8) (h : P b) : P (b.writeGateArray v) := by
  rcases b.gateArray.write_cases v with ⟨g, hcontrol, hwrite⟩ | hwrite | hwrite
  · simp only [Board.writeGateArray, hwrite]
    exact hP.same h rfl rfl hcontrol
  · simp only [Board.writeGateArray, hwrite]
    exact hP.remapped h rfl rfl (.inr (and_lt_of_lt v (by decide))) (.inl rfl)
  · simp only [Board.writeGateArray, hwrite]
    exact hP.remapped h rfl rfl (.inl rfl) (.inr (and_lt_of_lt v (by decide)))

theorem selectRom (hP : OfMap P) (v : UInt8) (h : P b) : P (b.selectRom v) :=
  hP.remapped h rfl rfl (.inl rfl) (.inl rfl)

theorem writeCrtc (hP : OfMap P) (register v : UInt8) (h : P b) : P (b.writeCrtc register v) := by
  simp only [Board.writeCrtc]
  split <;> exact hP.same h rfl rfl rfl

theorem writeDrives (hP : OfMap P) (register : DriveRegister) (v : UInt8) (h : P b) :
    P (b.writeDrives register v) := by
  cases register <;> exact hP.same h rfl rfl rfl

/-- One device after the other sees the access. -/
theorem output (hP : OfMap P) (port : UInt16) (v : UInt8) (h : P b) : P (b.output port v) := by
  have device : ∀ (c : Bool) {f : Board → Board} {b : Board}, (P b → P (f b)) → P b →
      P (if c then f b else b) := by
    intro c f b hf h
    cases c
    · exact h
    · exact hf h
  refine device _ (f := fun b => b.writeDrives (driveRegister port) v) (hP.writeDrives _ v) ?_
  refine device _ (f := fun b => b.writePpi (register port) v) (fun h => hP.same h rfl rfl rfl) ?_
  refine device _ (f := fun b => { b with printer := v }) (fun h => hP.same h rfl rfl rfl) ?_
  refine device _ (f := fun b => b.selectRom v) (hP.selectRom v) ?_
  refine device _ (f := fun b => b.writeCrtc (register port) v) (hP.writeCrtc _ v) ?_
  exact device _ (f := fun b => b.writeGateArray v) (hP.writeGateArray v) h

theorem input (hP : OfMap P) (port : UInt16) (h : P b) : P (b.input port).2 := by
  simp only [Board.input]
  split
  · split
    · exact h
    · exact h
    · exact hP.same h rfl rfl rfl
  · exact h

theorem acknowledge (hP : OfMap P) (h : P b) : P b.acknowledge.2 := hP.same h rfl rfl rfl

end OfMap

theorem follows_ofMap (first : Board) : OfMap (Follows first) where
  same h hmemory hpager hcontrol := h.of_eq hmemory hpager hcontrol
  remapped h hmemory _ hcontrol hramConfig := by
    refine h.remap hmemory ?_ ?_
    · rcases hcontrol with hsame | hlt
      · rw [hsame]
        exact h.control
      · exact hlt
    · rcases hramConfig with hsame | hlt
      · rw [hsame]
        exact h.ramConfig
      · exact hlt

theorem Follows.output (h : Follows first b) (port : UInt16) (v : UInt8) :
    Follows first (b.output port v) := (follows_ofMap first).output port v h

/-- Only writes to memory change what is in it. -/
theorem memory_ofMap (memory : Memory) : OfMap fun b => b.memory = memory where
  same h hmemory _ _ := hmemory.trans h
  remapped h hmemory _ _ _ := hmemory.trans h

theorem memory_output (b : Board) (port : UInt16) (v : UInt8) : (b.output port v).memory = b.memory :=
  (memory_ofMap b.memory).output port v rfl

theorem memory_input (b : Board) (port : UInt16) : (b.input port).2.memory = b.memory :=
  (memory_ofMap b.memory).input port rfl

theorem Follows.performAll (h : Follows first b) (accesses : List Access) :
    Follows first (b.performAll accesses) := by
  induction accesses generalizing b with
  | nil => exact h
  | cons access accesses ih =>
    refine ih ?_
    cases access with
    | memory address v => exact h.writeMemory address v
    | port port v => exact h.output port v

end Board

end AmstradCpc
