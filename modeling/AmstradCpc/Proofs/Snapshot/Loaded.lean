/-
What loading bytes as a snapshot does to a machine, whatever the bytes are and whatever the
machine was doing. `validate_eq_ok_iff` says which bytes are taken (`Acceptable`); a machine
that takes them is `loaded` afterwards, and one that does not is reset. Each part of the
loaded machine has a lemma, in which only what a snapshot of an early version leaves as it
was is told apart.
-/
import AmstradCpc.Machine.Snapshots
import AmstradCpc.Proofs.Bytes
import AmstradCpc.Proofs.Storage.Dialogue

namespace AmstradCpc

namespace Snapshot

/-! ## Which bytes are taken -/

/-- A machine with so many kilobytes takes the bytes: a whole header with the signature, and
all of the memory that it announces, which is a number of whole banks and no more than
there is. -/
structure Acceptable (data : ByteArray) (installed : Nat) : Prop where
  header : headerSize ≤ data.size
  signature : beginsWith data signature = true
  banks : 16 ∣ wordAt data sizePlace
  fits : wordAt data sizePlace ≤ installed
  whole : headerSize + 1024 * wordAt data sizePlace ≤ data.size

variable {data : ByteArray} {m : Machine}

theorem validate_of_acceptable {installed : Nat} (h : Acceptable data installed) :
    validate data installed = .ok (wordAt data sizePlace / 16) := by
  have hheader := h.header
  have hbanks := Nat.mod_eq_zero_of_dvd h.banks
  have hfits := h.fits
  have hwhole := h.whole
  simp only [validate, h.signature, hbanks, Bool.not_true, Bool.false_eq_true, ne_eq, not_true_eq_false,
    if_false]
  rw [if_neg (by omega), if_neg (by omega), if_neg (by omega)]

/-- Whatever the bytes lack, they are refused. -/
theorem acceptable_of_validate {installed banks : Nat} (h : validate data installed = .ok banks) :
    Acceptable data installed := by
  simp only [validate] at h
  split at h
  · split at h <;> cases h
  · split at h
    · cases h
    · split at h
      · cases h
      · split at h
        · cases h
        · split at h
          · cases h
          next hheader hsignature hbanks hfits hwhole =>
            refine ⟨by omega, by simpa using hsignature, Nat.dvd_of_mod_eq_zero (by omega), by omega, by omega⟩

theorem validate_eq_ok_iff {installed banks : Nat} :
    validate data installed = .ok banks ↔
      Acceptable data installed ∧ banks = wordAt data sizePlace / 16 := by
  constructor
  · intro h
    have hacceptable := acceptable_of_validate h
    rw [validate_of_acceptable hacceptable] at h
    cases h
    exact ⟨hacceptable, rfl⟩
  · rintro ⟨h, rfl⟩
    exact validate_of_acceptable h

/-! ## The machine that has taken them -/

/-- The machine with the state of a snapshot, and with the map that goes with it. -/
def loaded (data : ByteArray) (m : Machine) : Machine :=
  let m := loadState data (wordAt data sizePlace / 16) m
  { m with board := m.board.remap }

theorem load_of_acceptable (h : Acceptable data m.board.memory.kilobytes) :
    load data m = .ok (loaded data m) := by
  rw [load, validate_eq_ok_iff.mpr ⟨h, rfl⟩]
  rfl

theorem load_of_not_acceptable (h : ¬Acceptable data m.board.memory.kilobytes) :
    ∃ e, load data m = .error e := by
  rw [load]
  cases hvalidate : validate data m.board.memory.kilobytes with
  | error e => exact ⟨e, rfl⟩
  | ok banks => exact absurd (validate_eq_ok_iff.mp hvalidate).1 h

theorem loadOrReset_of_acceptable (h : Acceptable data m.board.memory.kilobytes) :
    loadOrReset data m = (.ok (), loaded data m) := by
  rw [loadOrReset, load_of_acceptable h]

theorem loadOrReset_of_not_acceptable (h : ¬Acceptable data m.board.memory.kilobytes) :
    ∃ e, loadOrReset data m = (.error e, m.reset) := by
  obtain ⟨e, he⟩ := load_of_not_acceptable h
  exact ⟨e, by rw [loadOrReset, he]⟩

section Parts

variable (data : ByteArray) (m : Machine)

theorem regs_loaded : (loaded data m).cpu.regs = registersOf data := by
  simp only [loaded, loadState]
  split
  · simp only [loadDriveState, Cpu.raiseInt]
    split <;> rfl
  · rfl

/-- The processor was reset, so that only the snapshot can have an interrupt pending. -/
theorem intLatch_loaded :
    (loaded data m).cpu.intLatch = (hasDriveState data && byteAt data interruptPlace != 0) := by
  simp only [loaded, loadState]
  split
  next h =>
    simp only [loadDriveState, Cpu.raiseInt, h, Bool.true_and]
    split
    next hpending => exact hpending.symm
    next hnone => exact (Bool.eq_false_iff.mpr hnone).symm
  next h =>
    rw [Bool.eq_false_iff.mpr h, Bool.false_and]
    rfl

theorem memory_loaded :
    (loaded data m).board.memory = loadMemory data (wordAt data sizePlace / 16) m.board.memory := by
  simp only [loaded, loadState]
  split <;> rfl

theorem gateArray_loaded : (loaded data m).board.gateArray =
    if hasDriveState data then
      { loadGateArray data m.board.gateArray with
        delayed := byteAt data delayedPlace
        counter := byteAt data counterPlace &&& 0x3F }
    else loadGateArray data m.board.gateArray := by
  simp only [loaded, loadState]
  split <;> rfl

theorem pager_loaded : (loaded data m).board.pager =
    Pager.select
      { m.board.pager with ramConfig := byteAt data 0x41 &&& 0x3F, romSelect := byteAt data 0x55 }
      (loaded data m).board.memory (loaded data m).board.gateArray.control := by
  simp only [loaded, loadState]
  split <;> rfl

theorem crtc_loaded : (loaded data m).board.crtc = loadCrtc data m.board.crtc := by
  simp only [loaded, loadState]
  split <;> rfl

theorem ppi_loaded : (loaded data m).board.ppi = ppiOf data := by
  simp only [loaded, loadState]
  split <;> rfl

theorem peripherals_loaded :
    (loaded data m).board.peripherals = loadPeripherals data m.board.peripherals := by
  simp only [loaded, loadState]
  split <;> rfl

theorem drives_loaded : (loaded data m).board.drives =
    if hasDriveState data then loadDrives data m.board.drives else m.board.drives := by
  simp only [loaded, loadState]
  split <;> rfl

theorem printer_loaded : (loaded data m).board.printer =
    if hasDriveState data then byteAt data printerPlace else m.board.printer := by
  simp only [loaded, loadState]
  split <;> rfl

theorem model_loaded : (loaded data m).model = m.model := by
  simp only [loaded, loadState]
  split <;> rfl

theorem frame_loaded : (loaded data m).frame = m.frame := by
  simp only [loaded, loadState]
  split <;> rfl

end Parts

/-! ## Its memory -/

theorem size_ram_loaded (data : ByteArray) (m : Machine) :
    (loaded data m).board.memory.ram.size = m.board.memory.ram.size := by
  rw [memory_loaded]
  exact Array.size_mapIdx

/-- A byte of RAM is the one that the snapshot has for it, and zero in the banks behind. Nothing
shines through from before. -/
theorem get_ram_loaded {i j : Nat} (hi : i < (loaded data m).board.memory.ram.size) (hj : j < bankSize) :
    (loaded data m).board.memory.ram[i].get j hj =
      if i < wordAt data sizePlace / 16 then byteAt data (headerSize + i * bankSize + j) else 0 := by
  have hbank : (loaded data m).board.memory.ram[i] =
      if i < wordAt data sizePlace / 16 then
        .ofBytes bankSize (data.extract (headerSize + i * bankSize) (headerSize + (i + 1) * bankSize))
      else Bank.zeroed := by
    have hi' : i < (loadMemory data (wordAt data sizePlace / 16) m.board.memory).ram.size := by
      rwa [memory_loaded] at hi
    have hsame : (loaded data m).board.memory.ram[i] =
        (loadMemory data (wordAt data sizePlace / 16) m.board.memory).ram[i] := by
      simp only [memory_loaded]
    rw [hsame]
    exact Array.getElem_mapIdx ..
  rw [hbank]
  split
  · rw [Block.get_ofBytes, byteAt_extract]
    rw [Nat.add_mul, Nat.one_mul]
    omega
  · exact Block.get_fill ..

/-! ## All or nothing -/

/-- The task asks nothing of the files, and comes to one end. -/
theorem loadSnapshotBytes_runs_iff {journal : Journal} {events : List FileEvent} {r : Except Error Unit}
    {s' : Machine × Journal} :
    (Machine.loadSnapshotBytes data).Runs (m, journal) events r s' ↔
      events = [] ∧ r = (loadOrReset data m).1.mapError .snapshot ∧
        s' = ((loadOrReset data m).2, (loadNotices data m).foldl Array.push journal) := by
  rw [Machine.loadSnapshotBytes, FileTask.runs_part_bind_iff, FileTask.runs_notes_bind_iff,
    FileTask.runs_setPart_bind_iff]
  cases (loadOrReset data m).1 with
  | ok _ => exact FileTask.runs_pure_iff
  | error e => exact FileTask.runs_throw_iff

/-- **A snapshot is loaded as a whole or not at all.** The bytes are taken exactly when they are
acceptable for the memory there is. If they are, the first banks of RAM are those of the
snapshot and the others are zero, whatever they were before. If they are not, the machine is
what a reset alone makes of it, with its memory, its disks and their unsaved changes. -/
theorem load_all_or_nothing (data : ByteArray) (m : Machine) (journal : Journal) :
    ∃ result m' journal',
      (∀ events r s', (Machine.loadSnapshotBytes data).Runs (m, journal) events r s' ↔
        events = [] ∧ r = result ∧ s' = (m', journal')) ∧
      (result = .ok () ↔ Acceptable data m.board.memory.kilobytes) ∧
      (result = .ok () →
        m'.board.memory.ram.size = m.board.memory.ram.size ∧
        ∀ i (hi : i < m'.board.memory.ram.size) j (hj : j < bankSize),
          m'.board.memory.ram[i].get j hj =
            if i < wordAt data sizePlace / 16 then byteAt data (headerSize + i * bankSize + j) else 0) ∧
      (result ≠ .ok () →
        m' = m.reset ∧ m'.board.memory = m.board.memory ∧ m'.board.drives.files = m.board.drives.files ∧
        ∀ unit, m'.board.drives.controller.disk unit = m.board.drives.controller.disk unit) := by
  refine ⟨_, _, _, fun _ _ _ => loadSnapshotBytes_runs_iff, ?_⟩
  by_cases h : Acceptable data m.board.memory.kilobytes
  · rw [loadOrReset_of_acceptable h]
    exact ⟨iff_of_true rfl h, fun _ => ⟨size_ram_loaded data m, fun i hi j hj => get_ram_loaded hi hj⟩,
      fun hfailed => absurd rfl hfailed⟩
  · obtain ⟨e, he⟩ := loadOrReset_of_not_acceptable h
    rw [he]
    exact ⟨iff_of_false nofun h, nofun, fun _ => ⟨rfl, rfl, rfl, fun _ => rfl⟩⟩

end Snapshot

end AmstradCpc
