/-
How far a snapshot determines the machine that has loaded it, as a second snapshot shows. One
of the latest version determines all of it. Earlier versions have no place for the drives,
the printer and the line counter of the gate array, and loading one leaves these as they
are (`LeftAlike`); `restored_alike_iff` says that this is all that shines through.
-/
import AmstradCpc.Proofs.Snapshot.Loaded
import AmstradCpc.Proofs.Snapshot.RoundTrip

namespace AmstradCpc

theorem Fdc.unit_lt_of_isAttached {f : Fdc} {unit : Nat} (h : f.isAttached unit = true) : unit < 4 := by
  obtain ⟨d, hd⟩ := Option.isSome_iff_exists.mp h
  exact Fdc.unit_lt_of_drive hd

namespace Snapshot

variable {data file : ByteArray} {m m' : Machine}

/-! ## Registers that do not depend on the machine -/

theorem loadCrtc_eq (data : ByteArray) (c : Crtc) : loadCrtc data c = { c with
    address := byteAt data 0x42 &&& 0x1F
    registers := .ofFn fun i => byteAt data (0x43 + i) &&& Crtc.mask i } := by
  rw [loadCrtc, Crtc.foldl_poke fun i => byteAt data (0x43 + i), Crtc.select]

theorem loadPsg_eq (data : ByteArray) (p : Psg) : loadPsg data p = { p with
    selected := byteAt data 0x5A
    registers := .ofFn fun i => byteAt data (0x5B + i) &&& Psg.mask i } := by
  rw [loadPsg, Psg.foldl_poke fun i => byteAt data (0x5B + i), Psg.select]

theorem controller_loadDrives (data : ByteArray) (d : Drives) :
    (loadDrives data d).controller =
      seekAll (d.controller.setMotor (motorOf data)) fun unit => byteAt data (cylindersPlace + unit) := rfl

/-- Heads that there are stand where the snapshot says. -/
theorem cylinder_loadDrives (data : ByteArray) (d : Drives) (unit : Nat) :
    (loadDrives data d).controller.cylinder unit =
      if d.controller.isAttached unit = true then byteAt data (cylindersPlace + unit) else 0 := by
  have hattached : (d.controller.setMotor (motorOf data)).isAttached unit = d.controller.isAttached unit := rfl
  rw [controller_loadDrives, seekAll,
    cylinder_seeks (fun unit => byteAt data (cylindersPlace + unit)), hattached]
  by_cases h : d.controller.isAttached unit = true
  · rw [if_pos ⟨List.mem_range.mpr (Fdc.unit_lt_of_isAttached h), h⟩, if_pos h]
  · rw [if_neg (fun hboth => h hboth.2), if_neg h]
    exact Fdc.cylinder_of_not_attached (Bool.eq_false_iff.mpr h)

/-- Nothing in a bank of RAM is left from before. -/
theorem ram_loadMemory (data : ByteArray) (banks : Nat) {memory memory' : Memory}
    (hsize : memory'.ram.size = memory.ram.size) :
    (loadMemory data banks memory').ram = (loadMemory data banks memory).ram := by
  have hsizes : (loadMemory data banks memory').ram.size = (loadMemory data banks memory).ram.size := by
    simp only [loadMemory, Array.size_mapIdx, hsize]
  refine Array.ext hsizes fun i hi hi' => ?_
  simp only [loadMemory, Array.getElem_mapIdx]

/-! ## What an early snapshot leaves as it is -/

/-- What only snapshots of the latest version have is the same in both machines. -/
structure LeftAlike (m m' : Machine) : Prop where
  motor : m'.board.drives.controller.motor = m.board.drives.controller.motor
  cylinder : ∀ unit, m'.board.drives.controller.cylinder unit = m.board.drives.controller.cylinder unit
  printer : m'.board.printer = m.board.printer
  delayed : m'.board.gateArray.delayed = m.board.gateArray.delayed
  counter : m'.board.gateArray.counter = m.board.gateArray.counter

theorem flagByte_injective {b c : Bool} (h : flagByte b = flagByte c) : b = c := by
  rw [← bitOf_flagByte b, h, bitOf_flagByte]

/-- A saved file tells all of it. -/
theorem Saved.leftAlike (h : Saved m file) (h' : Saved m' file) : LeftAlike m m' := by
  have hdrives : ∀ {i : Nat}, 0x9C ≤ i → i < 0xA2 → _ := fun hstart hi =>
    (h'.byteAt_drives hstart hi).symm.trans (h.byteAt_drives hstart hi)
  have hinterrupt : ∀ {i : Nat}, 0xB2 ≤ i → i < 0xB5 → _ := fun hstart hi =>
    (h'.interrupt.byteAt_list hstart hi).symm.trans (h.interrupt.byteAt_list hstart hi)
  refine ⟨?_, fun unit => ?_, ?_, ?_, ?_⟩
  · exact flagByte_injective (hdrives (i := 0x9C) (by decide) (by decide))
  · match unit with
    | 0 => exact hdrives (i := 0x9D) (by decide) (by decide)
    | 1 => exact hdrives (i := 0x9E) (by decide) (by decide)
    | 2 => exact hdrives (i := 0x9F) (by decide) (by decide)
    | 3 => exact hdrives (i := 0xA0) (by decide) (by decide)
    | unit + 4 =>
      have hnone : ∀ f : Fdc, f.cylinder (unit + 4) = 0 := fun f =>
        Fdc.cylinder_of_not_attached (Bool.eq_false_iff.mpr fun hattached => by
          have hlt := Fdc.unit_lt_of_isAttached hattached
          omega)
      rw [hnone, hnone]
  · exact hdrives (i := 0xA1) (by decide) (by decide)
  · exact hinterrupt (i := 0xB2) (by decide) (by decide)
  · exact hinterrupt (i := 0xB3) (by decide) (by decide)

/-- Loading a snapshot of an early version changes none of it. -/
theorem leftAlike_loaded (hearly : hasDriveState data = false) (m : Machine) :
    LeftAlike m (loaded data m) := by
  have hdrives : (loaded data m).board.drives = m.board.drives := by
    rw [drives_loaded, hearly]
    rfl
  have hgate : (loaded data m).board.gateArray = loadGateArray data m.board.gateArray := by
    rw [gateArray_loaded, hearly]
    rfl
  refine ⟨?_, fun unit => ?_, ?_, ?_, ?_⟩
  · rw [hdrives]
  · rw [hdrives]
  · rw [printer_loaded, hearly]
    rfl
  · rw [hgate]
    rfl
  · rw [hgate]
    rfl

theorem LeftAlike.symm (h : LeftAlike m m') : LeftAlike m' m :=
  ⟨h.motor.symm, fun unit => (h.cylinder unit).symm, h.printer.symm, h.delayed.symm, h.counter.symm⟩

theorem LeftAlike.trans {m'' : Machine} (h : LeftAlike m m') (h' : LeftAlike m' m'') : LeftAlike m m'' :=
  ⟨h'.motor.trans h.motor, fun unit => (h'.cylinder unit).trans (h.cylinder unit),
    h'.printer.trans h.printer, h'.delayed.trans h.delayed, h'.counter.trans h.counter⟩

/-- One of the latest version brings all of it along. -/
theorem leftAlike_of_hasDriveState (hlatest : hasDriveState data = true)
    (hunits : ∀ unit, m'.board.drives.controller.isAttached unit = m.board.drives.controller.isAttached unit) :
    LeftAlike (loaded data m) (loaded data m') := by
  refine ⟨?_, fun unit => ?_, ?_, ?_, ?_⟩
  · simp only [drives_loaded, hlatest, if_true, controller_loadDrives, motor_seekAll]
    rfl
  · simp only [drives_loaded, hlatest, if_true, cylinder_loadDrives, hunits]
  · simp only [printer_loaded, hlatest, if_true]
  · simp only [gateArray_loaded, hlatest, if_true]
  · simp only [gateArray_loaded, hlatest, if_true]

/-! ## Two machines that load the same snapshot -/

/-- Apart from what is left as it was, the snapshot determines all that a snapshot is made of. -/
theorem carried_loaded (hsize : m'.board.memory.ram.size = m.board.memory.ram.size)
    (hleft : LeftAlike (loaded data m) (loaded data m')) : Carried (loaded data m) (loaded data m') where
  ram := by
    rw [memory_loaded, memory_loaded]
    exact ram_loadMemory data _ hsize
  regs := by rw [regs_loaded, regs_loaded]
  intLatch := by rw [intLatch_loaded, intLatch_loaded]
  gateArray := by
    have hdelayed := hleft.delayed
    have hcounter := hleft.counter
    rw [gateArray_loaded, gateArray_loaded] at hdelayed hcounter ⊢
    split
    · rfl
    next hearly =>
      rw [if_neg hearly, if_neg hearly] at hdelayed hcounter
      simp only [loadGateArray, GateArray.setPen] at hdelayed hcounter ⊢
      rw [hdelayed, hcounter]
  ramConfig := by
    rw [pager_loaded, pager_loaded]
    rfl
  romSelect := by
    rw [pager_loaded, pager_loaded]
    rfl
  crtcAddress := by rw [crtc_loaded, crtc_loaded, loadCrtc_eq, loadCrtc_eq]
  crtc := by rw [crtc_loaded, crtc_loaded, loadCrtc_eq, loadCrtc_eq]
  ppi := by rw [ppi_loaded, ppi_loaded]
  psgSelected := by
    rw [peripherals_loaded, peripherals_loaded, loadPeripherals, loadPeripherals, loadPsg_eq, loadPsg_eq]
  psg := by
    rw [peripherals_loaded, peripherals_loaded, loadPeripherals, loadPeripherals, loadPsg_eq, loadPsg_eq]
  motor := hleft.motor
  cylinder := hleft.cylinder
  printer := hleft.printer

theorem save_loaded_eq_iff (hmodel : m'.model = m.model)
    (hsize : m'.board.memory.ram.size = m.board.memory.ram.size)
    (hunits : ∀ unit, m'.board.drives.controller.isAttached unit = m.board.drives.controller.isAttached unit) :
    save (loaded data m') = save (loaded data m) ↔ hasDriveState data = true ∨ LeftAlike m m' := by
  have hmodels : (loaded data m').model = (loaded data m).model := by
    rw [model_loaded, model_loaded, hmodel]
  cases hversion : hasDriveState data with
  | true =>
    refine iff_of_true ?_ (.inl rfl)
    exact (carried_loaded hsize (leftAlike_of_hasDriveState hversion hunits)).save_eq hmodels
  | false =>
    have hm := leftAlike_loaded hversion m
    have hm' := leftAlike_loaded hversion m'
    constructor
    · intro h
      have hsaved : Saved (loaded data m') (save (loaded data m)) := h ▸ saved_save (loaded data m')
      exact .inr ((hm.trans ((saved_save (loaded data m)).leftAlike hsaved)).trans hm'.symm)
    · rintro (h | h)
      · cases h
      · exact (carried_loaded hsize ((hm.symm.trans h).trans hm')).save_eq hmodels

/-- **What a snapshot determines.** Two machines of one model and with as much memory, whatever
they were doing, load the same bytes. Afterwards they save to the same bytes if and only if
the snapshot is of the latest version, or what earlier versions do not have was the same in
both before. -/
theorem restored_alike_iff {banks : Nat} (hvalid : validate data m.board.memory.kilobytes = .ok banks)
    (hmodel : m'.model = m.model) (hsize : m'.board.memory.ram.size = m.board.memory.ram.size)
    (hunits : ∀ unit, m'.board.drives.controller.isAttached unit = m.board.drives.controller.isAttached unit) :
    ∃ after after', load data m = .ok after ∧ load data m' = .ok after' ∧
      (save after' = save after ↔ version ≤ byteAt data versionPlace ∨ LeftAlike m m') := by
  have hacceptable := (validate_eq_ok_iff.mp hvalid).1
  have hacceptable' : Acceptable data m'.board.memory.kilobytes := by
    rwa [Memory.kilobytes, hsize]
  refine ⟨_, _, load_of_acceptable hacceptable, load_of_acceptable hacceptable', ?_⟩
  rw [save_loaded_eq_iff hmodel hsize hunits, hasDriveState, decide_eq_true_iff]

/-- A snapshot without memory, in which all registers are zero. -/
def bareSnapshot (version : UInt8) : ByteArray :=
  byteList (signature.toList ++ zeros 8 ++ [version] ++ zeros 239)

/-- The new machine after a program has switched the motor of its drives on. -/
def spinningMachine : Machine := { newMachine with board := newMachine.board.output 0xFA7E 0x01 }

theorem model_spinningMachine : spinningMachine.model = newMachine.model := rfl

theorem memory_spinningMachine : spinningMachine.board.memory = newMachine.board.memory := rfl

theorem isAttached_spinningMachine (unit : Nat) :
    spinningMachine.board.drives.controller.isAttached unit =
      newMachine.board.drives.controller.isAttached unit := rfl

/-- A snapshot of the latest version stops the motor, or leaves it off. -/
theorem restored_alike_latest :
    newMachine.board.drives.controller.motor = false ∧
    spinningMachine.board.drives.controller.motor = true ∧
    ∃ after after', load (bareSnapshot 3) newMachine = .ok after ∧
      load (bareSnapshot 3) spinningMachine = .ok after' ∧ save after' = save after := by
  have hvalid : validate (bareSnapshot 3) newMachine.board.memory.kilobytes = .ok 0 := by decide +kernel
  obtain ⟨after, after', hload, hload', hsave⟩ :=
    restored_alike_iff hvalid model_spinningMachine (by rw [memory_spinningMachine]) isAttached_spinningMachine
  exact ⟨rfl, by decide +kernel, after, after', hload, hload', hsave.mpr (.inl (by decide +kernel))⟩

/-- An early one leaves it as it is, so that the two machines are told apart afterwards. -/
theorem not_restored_alike_early : validate (bareSnapshot 1) newMachine.board.memory.kilobytes = .ok 0 ∧
    spinningMachine.model = newMachine.model ∧ spinningMachine.board.memory = newMachine.board.memory ∧
    ∃ after after', load (bareSnapshot 1) newMachine = .ok after ∧
      load (bareSnapshot 1) spinningMachine = .ok after' ∧ save after' ≠ save after := by
  have hvalid : validate (bareSnapshot 1) newMachine.board.memory.kilobytes = .ok 0 := by decide +kernel
  have hacceptable := (validate_eq_ok_iff.mp hvalid).1
  refine ⟨hvalid, model_spinningMachine, memory_spinningMachine, _, _, load_of_acceptable hacceptable,
    load_of_acceptable hacceptable, fun hsave => ?_⟩
  have hmotor : newMachine.board.drives.controller.motor = spinningMachine.board.drives.controller.motor := by
    have hearly : ¬hasDriveState (bareSnapshot 1) = true := by decide +kernel
    have hleft := (save_loaded_eq_iff model_spinningMachine (by rw [memory_spinningMachine])
      isAttached_spinningMachine).mp hsave
    exact ((hleft.resolve_left hearly).motor).symm
  exact absurd hmotor (by decide +kernel)

end Snapshot

end AmstradCpc
