/-
The four windows of the memory map. They name four different banks of RAM, all of them
installed, on every board that comes about (`Reached.mapped`), though the map is kept and is
worked out from registers that change in several places. So a cell of RAM is seen at one address
at most, and a write is seen at its own address or nowhere (`Mapped.peek_writeMemory`).
-/
import Mathlib.Data.FinEnum
import AmstradCpc.Proofs.Board.Cells
import AmstradCpc.Proofs.Board.Reached

namespace AmstradCpc

theorem eq_of_windowOf_of_bankOffset {address other : UInt16} (hwindow : windowOf address = windowOf other)
    (hoffset : bankOffset address = bankOffset other) : address = other := by
  have hdiv : address.toNat / bankSize = other.toNat / bankSize := congrArg Fin.val hwindow
  have hmod : address.toNat % bankSize = other.toNat % bankSize := congrArg Fin.val hoffset
  refine UInt16.toNat_inj.mp ?_
  rw [← Nat.div_add_mod address.toNat bankSize, ← Nat.div_add_mod other.toNat bankSize, hdiv, hmod]

/-- The map looks at the same bits of the gate array's control as the gate array itself. -/
theorem bitOf_control (g : GateArray) :
    bitOf g.control 2 = !g.lowerRomEnabled ∧ bitOf g.control 3 = !g.upperRomEnabled := by
  have hbits : ∀ control : UInt8,
      bitOf control 2 = !(control &&& 0x04 == 0) ∧ bitOf control 3 = !(control &&& 0x08 == 0) := by
    decide +kernel
  exact hbits g.control

namespace Pager

/-! ## Banks -/

/-- The windows have different banks, and all of these are among the first `count`. -/
structure Apart (banks : Vector Nat 4) (count : Nat) : Prop where
  lt : ∀ window, banks.get window < count
  injective : ∀ window window', banks.get window = banks.get window' → window = window'

theorem apart_firstBanks {count : Nat} (h : 4 ≤ count) : Apart firstBanks count := by
  constructor
  · intro window
    have hlt : firstBanks.get window < 4 := by
      revert window
      decide
    omega
  · decide

/-- No arrangement has a bank twice, and the banks of a group are not among the first. -/
theorem apart_banksOf {config : UInt8} {count : Nat} (h : installed config count = true) :
    Apart (banksOf config) count := by
  have hrow : ∀ row window window',
      (arrangements.get row).get window = (arrangements.get row).get window' → window = window' := by decide
  constructor
  · intro window
    exact of_decide_eq_true (Vector.all_eq_true.mp h window.val window.isLt)
  · intro window window' hsame
    have hbank : ∀ window, (banksOf config).get window =
        let bank := (arrangements.get ⟨config.toNat % 8, Nat.mod_lt _ (by decide)⟩).get window
        if 4 ≤ bank then bank + config.toNat / 8 % 8 * 4 else bank := fun _ => Vector.getElem_map ..
    refine hrow ⟨config.toNat % 8, Nat.mod_lt _ (by decide)⟩ window window' ?_
    rw [hbank, hbank] at hsame
    dsimp only at hsame
    split at hsame <;> split at hsame <;> omega

/-- The map that is kept has to be as good as the one that is not there. -/
theorem Apart.writesFor {p : Pager} {count : Nat} (h : Apart p.writes count) (hcount : 4 ≤ count) :
    Apart (p.writesFor count) count := by
  rw [Pager.writesFor]
  split
  · exact apart_firstBanks hcount
  · split
    next hinstalled => exact apart_banksOf hinstalled
    next => exact h

end Pager

namespace Board

/-- The map is up to date, and its windows are apart. -/
structure Mapped (b : Board) : Prop where
  map : b.pager.select b.memory b.gateArray.control = b.pager
  enough : 4 ≤ b.memory.ram.size
  apart : Pager.Apart b.pager.writes b.memory.ram.size

variable {b b' : Board}

/-! ## The map stays up to date -/

/-- A map that has been worked out is up to date, whatever it was before. -/
theorem mapped_of_select {p : Pager} (hmap : b.pager = p.select b.memory b.gateArray.control)
    (henough : 4 ≤ b.memory.ram.size) (hapart : Pager.Apart p.writes b.memory.ram.size) : Mapped b := by
  refine ⟨?_, henough, ?_⟩
  · rw [hmap]
    exact Pager.select_select ..
  · rw [hmap]
    exact hapart.writesFor henough

theorem mapped_ofMap : OfMap Mapped where
  same h hmemory hpager hcontrol := by
    obtain ⟨hmap, henough, hapart⟩ := h
    rw [← hmemory] at hmap henough hapart
    rw [← hpager] at hmap hapart
    rw [← hcontrol] at hmap
    exact ⟨hmap, henough, hapart⟩
  remapped h hmemory hwrites _ _ := by
    obtain ⟨-, henough, hapart⟩ := h
    rw [← hmemory] at henough hapart
    rw [← hwrites] at hapart
    exact mapped_of_select rfl henough hapart

theorem Mapped.writeMemory (h : Mapped b) (address : UInt16) (v : UInt8) :
    Mapped (b.writeMemory address v) := by
  have hsize := b.size_ram_writeMemory address v
  refine ⟨(b.select_writeMemory address v).trans h.map, ?_, ?_⟩
  · rw [hsize]
    exact h.enough
  · rw [hsize]
    exact h.apart

theorem Mapped.reset (h : Mapped b) : Mapped b.reset :=
  mapped_of_select (p := {}) rfl h.enough (Pager.apart_firstBanks h.enough)

theorem Mapped.loaded (data : ByteArray) {m : Machine} (h : Mapped m.board) :
    Mapped (Snapshot.loaded data m).board := by
  have hsize := Snapshot.size_ram_loaded data m
  refine mapped_of_select (Snapshot.pager_loaded data m) ?_ ?_
  · rw [hsize]
    exact h.enough
  · rw [hsize]
    exact h.apart

theorem Mapped.loadOrReset (data : ByteArray) {m : Machine} (h : Mapped m.board) :
    Mapped (Snapshot.loadOrReset data m).2.board := by
  by_cases hacceptable : Snapshot.Acceptable data m.board.memory.kilobytes
  · rw [Snapshot.loadOrReset_of_acceptable hacceptable]
    exact h.loaded data
  · obtain ⟨e, he⟩ := Snapshot.loadOrReset_of_not_acceptable hacceptable
    rw [he]
    exact h.reset

theorem mapped_initial {memory : Memory} (h : 4 ≤ memory.ram.size) (signals : Signals) (hasDisc : Bool) :
    Mapped (.initial memory signals hasDisc) :=
  mapped_of_select (p := {}) rfl h (Pager.apart_firstBanks h)

theorem Reached.mapped {first : Board} (hfirst : Mapped first) (h : Reached KeepsMap first b) : Mapped b := by
  induction h with
  | start => exact hfirst
  | cycle cycle _ ih => exact mapped_ofMap.cycle (fun address v h => h.writeMemory address v) cycle ih
  | reset _ ih => exact ih.reset
  | snapshot data _ ih => exact ih.loadOrReset data
  | elsewhere _ hkeeps ih => exact mapped_ofMap.same ih hkeeps.memory hkeeps.pager hkeeps.control

/-! ## What is seen -/

/-- Where no ROM lies over a window, the bank is read that is written there. -/
theorem Mapped.reads_eq (h : Mapped b) (window : Fin 4) :
    b.pager.reads.get window = (b.romOver window).getD (.ram (b.pager.writes.get window)) := by
  have hwrites : b.pager.writesFor b.memory.ram.size = b.pager.writes := congrArg Pager.writes h.map
  have hreads : b.pager.readsFor b.memory b.gateArray.control b.pager.writes = b.pager.reads := by
    rw [← hwrites]
    exact congrArg Pager.reads h.map
  obtain ⟨hlower, hupper⟩ := bitOf_control b.gateArray
  rw [← hreads]
  match window with
  | 0 =>
    show (if bitOf b.gateArray.control 2 then Source.ram b.pager.writes[0] else .lowerRom) = _
    rw [hlower, romOver]
    cases b.gateArray.lowerRomEnabled <;> rfl
  | 1 => rfl
  | 2 => rfl
  | 3 =>
    show (if bitOf b.gateArray.control 3 then Source.ram b.pager.writes[3]
      else if (b.memory.expansion b.pager.romSelect).isSome then .expansion b.pager.romSelect
      else .upperRom) = _
    rw [hupper, romOver]
    cases b.gateArray.upperRomEnabled
    · rfl
    · cases (b.memory.expansion b.pager.romSelect).isSome <;> rfl

/-- What is read at an address is the byte in a cell that there is. -/
theorem Mapped.byte?_seenAt (h : Mapped b) (address : UInt16) :
    b.memory.byte? (b.seenAt address) = some (b.peek address) := by
  have hthere : (b.memory.chip? (b.seenAt address).chip).isSome := by
    rw [seenAt, h.reads_eq]
    cases hrom : b.romOver (windowOf address) with
    | none =>
      have hbank := Array.getElem?_eq_getElem (h.apart.lt (windowOf address))
      exact Option.isSome_of_eq_some hbank
    | some chip => exact (rom_of_romOver hrom).1
  rw [Memory.byte?, Memory.chip?_eq_bank hthere]
  rfl

/-- No cell of RAM is seen at two addresses. -/
theorem Mapped.seenAt_eq_writtenAt_iff (h : Mapped b) (other address : UInt16) :
    b.seenAt other = b.writtenAt address ↔ other = address ∧ b.romOver (windowOf address) = none := by
  have hram : ∀ {address}, b.romOver (windowOf address) = none → b.seenAt address = b.writtenAt address := by
    intro address hnone
    rw [seenAt, h.reads_eq, hnone]
    rfl
  constructor
  · intro hsame
    cases hrom : b.romOver (windowOf other) with
    | none =>
      rw [hram hrom] at hsame
      have hbank : b.pager.writes.get (windowOf other) = b.pager.writes.get (windowOf address) :=
        Source.ram.inj (congrArg Cell.chip hsame)
      have haddress := eq_of_windowOf_of_bankOffset (h.apart.injective _ _ hbank) (congrArg Cell.offset hsame)
      exact ⟨haddress, haddress ▸ hrom⟩
    | some chip =>
      have hchip : b.pager.reads.get (windowOf other) = .ram (b.target address).1 := congrArg Cell.chip hsame
      rw [h.reads_eq, hrom, Option.getD_some] at hchip
      exact absurd hchip ((rom_of_romOver hrom).2 _)
  · rintro ⟨rfl, hnone⟩
    exact hram hnone

/-- A write is seen at its own address and only there, if no ROM lies over it. -/
theorem Mapped.peek_writeMemory (h : Mapped b) (address : UInt16) (v : UInt8) (other : UInt16) :
    (b.writeMemory address v).peek other =
      if other = address ∧ b.romOver (windowOf address) = none then v else b.peek other := by
  have hbefore := h.byte?_seenAt other
  have hafter := (h.writeMemory address v).byte?_seenAt other
  have hcell : (b.writeMemory address v).seenAt other = b.seenAt other := rfl
  rw [hcell, byte?_writeMemory, hbefore, Option.map_some] at hafter
  simp only [h.seenAt_eq_writtenAt_iff] at hafter
  split at hafter
  next hseen => rw [if_pos hseen, ← Option.some.inj hafter]
  next hunseen => rw [if_neg hunseen, ← Option.some.inj hafter]

/-- **The memory map is never out of date and never shows a cell twice.** On every board that a
machine with at least four banks comes to, by bus cycles, resets, snapshots, and anything else that
leaves the map alone, working the map out anew changes nothing, and the windows have four
different banks, all installed. So a write changes what is seen at its own address alone, and there
exactly where no ROM lies over the window. -/
theorem map_up_to_date {memory : Memory} {signals : Signals} {hasDisc : Bool}
    (henough : 4 ≤ memory.ram.size) (hreached : Reached KeepsMap (.initial memory signals hasDisc) b) :
    b.remap = b ∧
    (∀ window, b.pager.writes.get window < b.memory.ram.size) ∧
    (∀ window window', b.pager.writes.get window = b.pager.writes.get window' → window = window') ∧
    ∀ address,
      (∀ v other, other ≠ address → (b.writeMemory address v).peek other = b.peek other) ∧
      ((∀ v, (b.writeMemory address v).peek address = v) ↔ b.romOver (windowOf address) = none) ∧
      (b.romOver (windowOf address) ≠ none →
        ∀ v, (b.writeMemory address v).peek address = b.peek address) := by
  have hmapped := hreached.mapped (mapped_initial henough signals hasDisc)
  refine ⟨?_, hmapped.apart.lt, hmapped.apart.injective, fun address => ?_⟩
  · rw [remap, hmapped.map]
  have hcovered : b.romOver (windowOf address) ≠ none →
      ∀ v, (b.writeMemory address v).peek address = b.peek address := by
    intro hrom v
    rw [hmapped.peek_writeMemory, if_neg fun h => hrom h.2]
  refine ⟨?_, ?_, hcovered⟩
  · intro v other hother
    rw [hmapped.peek_writeMemory, if_neg fun h => hother h.1]
  · constructor
    · intro hseen
      by_contra hrom
      have hzero : b.peek address = 0 := (hcovered hrom 0).symm.trans (hseen 0)
      have hone : b.peek address = 1 := (hcovered hrom 1).symm.trans (hseen 1)
      exact absurd (hzero.symm.trans hone) (by decide)
    · intro hnone v
      rw [hmapped.peek_writeMemory, if_pos ⟨rfl, hnone⟩]

/-- A board of 128K that has just been put together. -/
def newBench : Bench := ⟨.initial (.initial 8 .zeroed .zeroed) {} true, #[]⟩

/-- The second four banks are mapped, with the firmware in the lowest window and no other ROM. -/
def secondBanks : Bench := Cycle.runAll newBench [.output 0x7F00 0xC2, .output 0x7F00 0x88]

/-- A write to the highest window is seen, and one to the lowest is not. -/
theorem secondBanks_up_to_date :
    Reached KeepsMap newBench.board secondBanks.board ∧
    secondBanks.board.pager.writes = #v[4, 5, 6, 7] ∧ secondBanks.board.remap = secondBanks.board ∧
    (∀ v, (secondBanks.board.writeMemory 0xC000 v).peek 0xC000 = v) ∧
    ∀ v, (secondBanks.board.writeMemory 0x0000 v).peek 0x0000 = secondBanks.board.peek 0x0000 := by
  have hreached : Reached KeepsMap newBench.board secondBanks.board := Reached.start.runAll _
  obtain ⟨hremap, -, -, hwrites⟩ := map_up_to_date (by decide) hreached
  obtain ⟨-, hseen, -⟩ := hwrites 0xC000
  obtain ⟨-, -, hunseen⟩ := hwrites 0x0000
  refine ⟨hreached, by decide +kernel, hremap, hseen.mpr ?_, hunseen ?_⟩
  · decide +kernel
  · decide +kernel

end Board

end AmstradCpc
