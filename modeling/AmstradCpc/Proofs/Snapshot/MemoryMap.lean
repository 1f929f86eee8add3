/-
What memory a machine sees after it has loaded a snapshot. A snapshot has the contents of the
RAM and the registers that the memory map is worked out from, but not the map. Where the
RAM configuration asks for banks that are not there, the map is an earlier one, which the
registers do not tell any more; a machine that has just been built then has its first banks
there instead. `sees_same_iff` says that this is all there is to it.
-/
import AmstradCpc.Proofs.Board.Cells
import AmstradCpc.Proofs.Board.Map
import AmstradCpc.Proofs.Snapshot.RoundTrip
import AmstradCpc.Proofs.Storage.Dialogue

namespace AmstradCpc

namespace Machine

open FileTask

/-! ## Machines that have been built -/

/-- The machine has been switched on and the disks of its configuration have been put into
its drives, whatever the files were. -/
def Built (c : Config) (roms : Roms) (m : Machine) : Prop :=
  ∃ journal events journal', (complete c).Runs (ofConfig c roms, journal) events (.ok ()) (m, journal')

/-- Something was done to the drives. -/
def OnlyDrives (m m' : Machine) : Prop := ∃ drives, m' = { m with board := { m.board with drives } }

theorem OnlyDrives.refl (m : Machine) : OnlyDrives m m := ⟨m.board.drives, rfl⟩

theorem OnlyDrives.trans {m₁ m₂ m₃ : Machine} (h : OnlyDrives m₁ m₂) (h' : OnlyDrives m₂ m₃) :
    OnlyDrives m₁ m₃ := by
  obtain ⟨_, rfl⟩ := h
  obtain ⟨drives, rfl⟩ := h'
  exact ⟨drives, rfl⟩

variable {s s' : Machine × Journal} {events : List FileEvent} {result : Except Error Unit}

theorem insertDisk_runs {drive : Nat} {path : String} (h : (insertDisk drive path).Runs s events result s') :
    OnlyDrives s.1 s'.1 := by
  have hrequire : ∀ {r : Except Error Unit} {s₁ : Machine × Journal} {events : List FileEvent},
      (requireDisc path).Runs s events r s₁ → s₁ = s := by
    intro r s₁ events hr
    have hr := runs_part_bind_iff.mp hr
    split at hr
    · exact (runs_pure_iff.mp hr).2.2
    · exact (runs_throw_iff.mp hr).2.2
  rcases runs_bind_iff.mp h with ⟨e, -, hr⟩ | ⟨⟨⟩, s₁, first, rest, rfl, hr, hinsert⟩
  · rw [hrequire hr]
    exact .refl _
  · obtain ⟨p, -, rfl⟩ := runs_within_iff.mp hinsert
    rw [hrequire hr]
    exact ⟨p.1, rfl⟩

theorem insertConfigured_runs {c : Config} {drive : Nat} {path : Option String}
    (h : (insertConfigured c drive path).Runs s events result s') : OnlyDrives s.1 s'.1 := by
  cases path with
  | none =>
    obtain ⟨-, -, rfl⟩ := runs_pure_iff.mp h
    exact .refl _
  | some path =>
    rw [insertConfigured] at h
    split at h
    · exact insertDisk_runs h
    · obtain ⟨-, -, rfl⟩ := runs_note_iff.mp h
      exact .refl _

theorem Built.onlyDrives {c : Config} {roms : Roms} {m : Machine} (h : Built c roms m) :
    OnlyDrives (ofConfig c roms) m := by
  obtain ⟨journal, events, journal', h⟩ := h
  obtain ⟨⟨⟩, s₁, _, _, -, hfirst, h⟩ := runs_bind_ok_iff.mp (runs_note_bind_iff.mp h)
  obtain ⟨⟨⟩, s₂, _, _, -, hsecond, h⟩ := runs_bind_ok_iff.mp h
  obtain ⟨-, -, hend⟩ := runs_note_iff.mp h
  cases hend
  exact (insertConfigured_runs hfirst).trans (insertConfigured_runs hsecond)

/-! ## Their memory -/

theorem ram_setExpansions : ∀ (slots : List (UInt8 × Bank)) (memory : Memory),
    (slots.foldl (fun memory (slot, rom) => memory.setExpansion slot (some rom)) memory).ram = memory.ram
  | [], _ => rfl
  | _ :: slots, _ => (ram_setExpansions slots _).trans rfl

theorem size_ram_ofConfig (c : Config) (roms : Roms) :
    (ofConfig c roms).board.memory.ram.size = c.memorySize.banks := by
  show (roms.expansions.foldl (fun memory (slot, rom) => memory.setExpansion slot (some rom))
    (Memory.initial c.memorySize.banks roms.lower roms.upper)).ram.size = _
  rw [ram_setExpansions, Memory.initial, Array.size_replicate]

theorem memory_ofConfig_congr {c c' : Config} (roms : Roms) (h : c.memorySize = c'.memorySize) :
    (ofConfig c roms).board.memory = (ofConfig c' roms).board.memory := by
  show roms.expansions.foldl _ (Memory.initial c.memorySize.banks roms.lower roms.upper) =
    roms.expansions.foldl _ (Memory.initial c'.memorySize.banks roms.lower roms.upper)
  rw [h]

theorem writes_ofConfig (c : Config) (roms : Roms) : (ofConfig c roms).board.pager.writes = firstBanks := by
  show ({} : Pager).writesFor _ = firstBanks
  have hbanks : Pager.banksOf 0 = firstBanks := by decide +kernel
  rw [Pager.writesFor]
  split
  · rfl
  · split
    · exact hbanks
    · rfl

theorem follows_ofConfig (c : Config) (roms : Roms) :
    Board.Follows (ofConfig c roms).board (ofConfig c roms).board :=
  ⟨Pager.select_select _ _ _, show (0 : UInt8) < 32 by decide, show (0 : UInt8) < 64 by decide,
    fun _ => rfl, rfl⟩

end Machine

namespace Board

/-- The processor reads the same in both at every address, and a write to it goes to the same place. -/
def SeesSame (b b' : Board) : Prop :=
  ∀ address, b'.peek address = b.peek address ∧ b'.target address = b.target address

/-- There is an address in every quarter. -/
theorem exists_windowOf : ∀ window : Fin 4, ∃ address, windowOf address = window
  | 0 => ⟨0x0000, rfl⟩
  | 1 => ⟨0x4000, rfl⟩
  | 2 => ⟨0x8000, rfl⟩
  | 3 => ⟨0xC000, rfl⟩

theorem writes_eq_of_seesSame {b b' : Board} (h : SeesSame b b') : b'.pager.writes = b.pager.writes := by
  refine Vector.ext fun i hi => ?_
  obtain ⟨address, haddress⟩ := exists_windowOf ⟨i, hi⟩
  have htarget := congrArg Prod.fst (h address).2
  simp only [target, haddress] at htarget
  exact htarget

end Board

namespace Snapshot

variable {m machine : Machine} {first : Board}

/-- The memory is that of the saved machine, and the map is worked out from the registers of
that machine and from the map there was before. -/
theorem restored_of_follows (h : Board.Follows first m.board)
    (hfirst : { machine.board.memory with ram := m.board.memory.ram } =
      { first.memory with ram := m.board.memory.ram }) :
    (restored m machine).board.memory = m.board.memory ∧
      (restored m machine).board.pager =
        { machine.board.pager with
          ramConfig := m.board.pager.ramConfig
          romSelect := m.board.pager.romSelect }.select m.board.memory m.board.gateArray.control := by
  have hmemory : { machine.board.memory with ram := m.board.memory.ram } = m.board.memory :=
    hfirst.trans (h.memory _).symm
  have hcontrol : m.board.gateArray.control &&& 0x1F = m.board.gateArray.control :=
    (and_lowBits_iff (n := 5) rfl).mpr h.control
  have hramConfig : m.board.pager.ramConfig &&& 0x3F = m.board.pager.ramConfig :=
    (and_lowBits_iff (n := 6) rfl).mpr h.ramConfig
  rw [memory_restored, pager_restored, hmemory, hcontrol, hramConfig]
  exact ⟨rfl, rfl⟩

/-- With the same memory and the same registers, the map differs only if it is an earlier one. -/
theorem seesSame_restored_iff (h : Board.Follows first m.board)
    (hfirst : { machine.board.memory with ram := m.board.memory.ram } =
      { first.memory with ram := m.board.memory.ram })
    (hwrites : machine.board.pager.writes = firstBanks) :
    Board.SeesSame m.board (restored m machine).board ↔
      Pager.installed m.board.pager.ramConfig m.board.memory.ram.size = true ∨
        m.board.pager.writes = firstBanks := by
  obtain ⟨hmemory, hpager⟩ := restored_of_follows h hfirst
  have hold : m.board.pager.writesFor m.board.memory.ram.size = m.board.pager.writes :=
    congrArg Pager.writes h.map
  have hnew : (restored m machine).board.pager.writes =
      if m.board.memory.ram.size < 8 then firstBanks
      else if Pager.installed m.board.pager.ramConfig m.board.memory.ram.size then
        Pager.banksOf m.board.pager.ramConfig
      else firstBanks := by
    rw [hpager, Pager.select, Pager.writesFor, hwrites]
  have hsame : (restored m machine).board.pager.writes = m.board.pager.writes ↔
      Pager.installed m.board.pager.ramConfig m.board.memory.ram.size = true ∨
        m.board.pager.writes = firstBanks := by
    rw [hnew, ← hold, Pager.writesFor]
    by_cases hsmall : m.board.memory.ram.size < 8
    · simp [hsmall]
    · by_cases hinstalled : Pager.installed m.board.pager.ramConfig m.board.memory.ram.size = true
      · simp [hsmall, hinstalled]
      · simp [hsmall, hinstalled, eq_comm]
  refine Iff.trans ⟨Board.writes_eq_of_seesSame, fun hw address => ?_⟩ hsame
  have hreads : (restored m machine).board.pager.reads = m.board.pager.reads := by
    have hmap : m.board.pager.readsFor m.board.memory m.board.gateArray.control
        (m.board.pager.writesFor m.board.memory.ram.size) = m.board.pager.reads :=
      congrArg Pager.reads h.map
    rw [hold, ← hw, hpager] at hmap
    rw [← hmap, hpager]
    rfl
  constructor
  · rw [Board.peek, Board.peek, Pager.read, Pager.read, hreads, hmemory]
  · rw [Board.target, Board.target, hw]

open Machine (Built ofConfig)

/-- **What a machine sees after its snapshot has been loaded.** A machine that has been built and
has carried out any accesses is saved, and loaded into one that has just been built with as
much memory and the same ROMs. Both see the same everywhere, for reading and for writing, if
and only if all banks that the RAM configuration asks for are there, or the first banks are
mapped anyway. -/
theorem sees_same_iff {c c' : Config} {roms : Roms} {built : Machine} {accesses : List Board.Access}
    (hbuilt : Built c roms built) (hm : m.board = built.board.performAll accesses)
    (hmachine : Built c' roms machine) (hsize : c'.memorySize = c.memorySize) :
    ∃ m', load (save m) machine = .ok m' ∧
      (Board.SeesSame m.board m'.board ↔
        Pager.installed m.board.pager.ramConfig m.board.memory.ram.size = true ∨
          m.board.pager.writes = firstBanks) := by
  obtain ⟨drives, rfl⟩ := hbuilt.onlyDrives
  obtain ⟨drives', rfl⟩ := hmachine.onlyDrives
  have hstart : Board.Follows (ofConfig c roms).board { (ofConfig c roms).board with drives } :=
    (Machine.follows_ofConfig c roms).of_eq rfl rfl rfl
  have hfollows : Board.Follows (ofConfig c roms).board m.board := by
    rw [hm]
    exact hstart.performAll accesses
  have hchips := Machine.memory_ofConfig_congr roms hsize
  have hbanks : m.board.memory.ram.size = c.memorySize.banks :=
    hfollows.size.trans (Machine.size_ram_ofConfig c roms)
  have hword : m.board.memory.kilobytes < 0x10000 := by
    rw [Memory.kilobytes, hbanks]
    cases c.memorySize <;> decide
  have hsame : (ofConfig c' roms).board.memory.ram.size = m.board.memory.ram.size := by
    rw [Machine.size_ram_ofConfig, hsize, hbanks]
  refine ⟨_, load_save hword hsame, seesSame_restored_iff hfollows ?_ (Machine.writes_ofConfig c' roms)⟩
  show { (ofConfig c' roms).board.memory with ram := m.board.memory.ram } = _
  rw [hchips]

/-- A machine of 128K that has just been switched on. -/
def newMachine128 : Machine := ofConfig { memory := some .k128 } { lower := .zeroed, upper := .zeroed }

theorem built_newMachine128 :
    Built { memory := some .k128 } { lower := .zeroed, upper := .zeroed } newMachine128 :=
  ⟨#[], [], _, rfl, rfl⟩

/-- The same after accesses to its ports. -/
def switched (accesses : List Board.Access) : Machine :=
  { newMachine128 with board := newMachine128.board.performAll accesses }

/-- The second four banks are mapped, and come back. -/
theorem sees_same_second_banks : ∃ m', load (save (switched [.port 0x7F00 0xC2])) newMachine128 = .ok m' ∧
    Board.SeesSame (switched [.port 0x7F00 0xC2]).board m'.board := by
  obtain ⟨m', hload, hsame⟩ := sees_same_iff (m := switched [.port 0x7F00 0xC2]) built_newMachine128 rfl
    built_newMachine128 rfl
  exact ⟨m', hload, hsame.mpr (.inl (by decide +kernel))⟩

/-- The second four banks are mapped, a byte is written to the first of them, and then four more
banks are asked for that are not there. -/
def overreached : Machine :=
  switched [.port 0x7F00 0xC2, .memory 0 0x55, .port 0x7F00 0x84, .port 0x7F00 0xCA]

/-- After its snapshot has been loaded the byte is not seen any more, and a write to its address
goes to another bank. -/
theorem overreached_not_seen_same :
    Built { memory := some .k128 } { lower := .zeroed, upper := .zeroed } newMachine128 ∧
    (∃ accesses, overreached.board = newMachine128.board.performAll accesses) ∧
    ∃ m', load (save overreached) newMachine128 = .ok m' ∧
      overreached.board.peek 0 = 0x55 ∧ m'.board.peek 0 = 0 ∧
      (overreached.board.target 0).1 = 4 ∧ (m'.board.target 0).1 = 0 := by
  refine ⟨built_newMachine128, ⟨_, rfl⟩, _, load_save (by decide +kernel) (by decide +kernel), ?_, ?_, ?_, ?_⟩
  · decide +kernel
  · decide +kernel
  · decide +kernel
  · decide +kernel

end Snapshot

end AmstradCpc
