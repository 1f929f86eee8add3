/-
A snapshot of a machine that has loaded a snapshot is that snapshot again. The header has
room for more than the registers can hold, and the loader keeps only the bits that a
register has; so this holds of machines whose registers are within their bounds. Behind it
stands that all that a snapshot is made of comes back (`Carried`).
-/
import Mathlib.Data.FinEnum
import AmstradCpc.Proofs.Fdc.Disks
import AmstradCpc.Machine.Build
import AmstradCpc.Proofs.Snapshot.Restored

namespace AmstradCpc

theorem and_lowBits_iff {v bits : UInt8} {n : Nat} (hbits : bits.toNat = 2 ^ n - 1) :
    v &&& bits = v ↔ v.toNat < 2 ^ n := by
  rw [← UInt8.toNat_inj, UInt8.toNat_and, hbits, Nat.and_two_pow_sub_one_eq_mod,
    Nat.mod_eq_iff_lt (Nat.two_pow_pos n).ne']

theorem ofFn_and_mask {n : Nat} {registers : Vector UInt8 n} {mask : Nat → UInt8}
    (h : ∀ i (hi : i < n), registers[i] &&& mask i = registers[i]) :
    Vector.ofFn (fun i : Fin n => registers[i] &&& mask i) = registers := by
  refine Vector.ext fun i hi => ?_
  rw [Vector.getElem_ofFn]
  exact h i hi

theorem GateArray.setPen_eq (g : GateArray) {pen : UInt8} (h : pen ≤ 16) : g.setPen pen = { g with pen } := by
  have hborder : ∀ pen : UInt8, pen ≤ 16 →
      (if pen &&& 0x10 != 0 then borderPen.toUInt8 else pen &&& 0x0F) = pen := by decide +kernel
  rw [setPen, hborder pen h]

namespace Snapshot

/-- Two drives are connected, as in every machine. -/
def TwoDrives (f : Fdc) : Prop := ∀ unit, f.isAttached unit = true ↔ unit < 2

/-- No register holds more than the loader keeps. -/
structure InRange (m : Machine) : Prop where
  im : m.cpu.regs.im ≤ 3
  pen : m.board.gateArray.pen ≤ 16
  inks : ∀ i (hi : i < 17), m.board.gateArray.inks[i] < 32
  control : m.board.gateArray.control < 32
  counter : m.board.gateArray.counter < 64
  ramConfig : m.board.pager.ramConfig < 64
  crtcAddress : m.board.crtc.address < 32
  crtc : ∀ i (hi : i < 18), m.board.crtc.registers[i] &&& Crtc.mask i = m.board.crtc.registers[i]
  psg : ∀ i (hi : i < 16),
    m.board.peripherals.psg.registers[i] &&& Psg.mask i = m.board.peripherals.psg.registers[i]

/-- What a snapshot is made of is the same in both machines. -/
structure Carried (m m' : Machine) : Prop where
  ram : m'.board.memory.ram = m.board.memory.ram
  regs : { m'.cpu.regs with wz := m.cpu.regs.wz, halted := m.cpu.regs.halted } = m.cpu.regs
  intLatch : m'.cpu.intLatch = m.cpu.intLatch
  gateArray : { m'.board.gateArray with overrun := m.board.gateArray.overrun } = m.board.gateArray
  ramConfig : m'.board.pager.ramConfig = m.board.pager.ramConfig
  romSelect : m'.board.pager.romSelect = m.board.pager.romSelect
  crtcAddress : m'.board.crtc.address = m.board.crtc.address
  crtc : m'.board.crtc.registers = m.board.crtc.registers
  ppi : m'.board.ppi = m.board.ppi
  psgSelected : m'.board.peripherals.psg.selected = m.board.peripherals.psg.selected
  psg : m'.board.peripherals.psg.registers = m.board.peripherals.psg.registers
  motor : m'.board.drives.controller.motor = m.board.drives.controller.motor
  cylinder : ∀ unit, m'.board.drives.controller.cylinder unit = m.board.drives.controller.cylinder unit
  printer : m'.board.printer = m.board.printer

variable {m m' machine : Machine}

/-- Nothing else goes into a snapshot but the model. -/
theorem Carried.save_eq (h : Carried m m') (hmodel : m'.model = m.model) : save m' = save m := by
  have hcpu : cpuBytes m'.cpu.regs = cpuBytes m.cpu.regs := by
    rw [← h.regs]
    rfl
  have hpen : m'.board.gateArray.pen = m.board.gateArray.pen := by rw [← h.gateArray]
  have hinks : m'.board.gateArray.inks = m.board.gateArray.inks := by rw [← h.gateArray]
  have hcontrol : m'.board.gateArray.control = m.board.gateArray.control := by rw [← h.gateArray]
  have hdelayed : m'.board.gateArray.delayed = m.board.gateArray.delayed := by rw [← h.gateArray]
  have hcounter : m'.board.gateArray.counter = m.board.gateArray.counter := by rw [← h.gateArray]
  have hheader : header m' = header m := by
    simp only [header, chipBytes, hcpu, hpen, hinks, hcontrol, hdelayed, hcounter, h.ramConfig, h.romSelect,
      h.crtcAddress, h.crtc, h.ppi, h.psgSelected, h.psg, h.motor, h.cylinder, h.printer, h.intLatch, h.ram,
      Memory.kilobytes, hmodel]
  rw [save, save, hheader, h.ram]

theorem cylinder_seeks (cylinder : Nat → UInt8) (unit : Nat) : ∀ (units : List Nat) (f : Fdc),
    (units.foldl (fun f unit => f.setCylinder unit (cylinder unit)) f).cylinder unit =
      if unit ∈ units ∧ f.isAttached unit = true then cylinder unit else f.cylinder unit
  | [], f => by simp
  | first :: units, f => by
    rw [List.foldl_cons, cylinder_seeks cylinder unit units, Fdc.isAttached_setCylinder,
      Fdc.cylinder_setCylinder]
    by_cases hfirst : first = unit
    · by_cases hattached : f.isAttached unit = true <;> simp [hfirst, hattached]
    · simp [hfirst, Ne.symm hfirst]

/-- Heads that there are stand where they are to, and there are no others. -/
theorem cylinder_seekAll {f g : Fdc} (hf : TwoDrives f) (hg : TwoDrives g) (unit : Nat) :
    (seekAll f g.cylinder).cylinder unit = g.cylinder unit := by
  rw [seekAll, cylinder_seeks]
  by_cases hunit : unit < 2
  · rw [if_pos ⟨List.mem_range.mpr (by omega), (hf unit).mpr hunit⟩]
  · have hnone : ∀ {c : Fdc}, TwoDrives c → c.isAttached unit = false := fun hc =>
      Bool.eq_false_iff.mpr fun h => hunit ((hc unit).mp h)
    rw [if_neg (by simp [hnone hf]), Fdc.cylinder_of_not_attached (hnone hf),
      Fdc.cylinder_of_not_attached (hnone hg)]

theorem motor_setCylinder (f : Fdc) (unit : Nat) (c : UInt8) : (f.setCylinder unit c).motor = f.motor := by
  rw [Fdc.setCylinder, Fdc.modifyDrive]
  split <;> rfl

theorem motor_seekAll (f : Fdc) (cylinder : Nat → UInt8) : (seekAll f cylinder).motor = f.motor := by
  simp only [seekAll, List.range_succ, List.range_zero, List.nil_append, List.cons_append, List.foldl_cons,
    List.foldl_nil, motor_setCylinder]

/-- What the loader masks out of registers in range is zero. -/
theorem InRange.carried (h : InRange m) (hm : TwoDrives m.board.drives.controller)
    (hmachine : TwoDrives machine.board.drives.controller) : Carried m (restored m machine) where
  ram := rfl
  regs := by
    have him : m.cpu.regs.im &&& 3 = m.cpu.regs.im :=
      (and_lowBits_iff (n := 2) rfl).mpr (Nat.lt_succ_of_le h.im)
    rw [cpu_restored, reloaded, him]
  intLatch := rfl
  gateArray := by
    have hinks : m.board.gateArray.inks.map (· &&& 0x1F) = m.board.gateArray.inks := by
      refine Vector.ext fun i hi => ?_
      rw [Vector.getElem_map]
      exact (and_lowBits_iff (n := 5) rfl).mpr (h.inks i hi)
    have hcontrol : m.board.gateArray.control &&& 0x1F = m.board.gateArray.control :=
      (and_lowBits_iff (n := 5) rfl).mpr h.control
    have hcounter : m.board.gateArray.counter &&& 0x3F = m.board.gateArray.counter :=
      (and_lowBits_iff (n := 6) rfl).mpr h.counter
    rw [gateArray_restored, GateArray.setPen_eq _ h.pen, hinks, hcontrol, hcounter]
  ramConfig := by
    rw [pager_restored]
    exact (and_lowBits_iff (n := 6) rfl).mpr h.ramConfig
  romSelect := by rw [pager_restored]; rfl
  crtcAddress := by
    rw [crtc_restored]
    exact (and_lowBits_iff (n := 5) rfl).mpr h.crtcAddress
  crtc := by rw [crtc_restored, ofFn_and_mask h.crtc]
  ppi := rfl
  psgSelected := by rw [psg_restored]
  psg := by rw [psg_restored, ofFn_and_mask h.psg]
  motor := by
    rw [controller_restored, motor_seekAll]
    rfl
  cylinder := by
    rw [controller_restored]
    exact cylinder_seekAll hmachine hm
  printer := rfl

/-! ## Machines that have been switched on -/

theorem twoDrives_ofConfig (c : Config) (roms : Roms) :
    TwoDrives (Machine.ofConfig c roms).board.drives.controller
  | 0 | 1 => iff_of_true rfl (by decide)
  | 2 | 3 => iff_of_false Bool.false_ne_true (by decide)
  | unit + 4 => iff_of_false (by
      show ¬((Fdc.drive _ (unit + 4)).isSome = true)
      rw [Fdc.drive, Vector.getElem?_eq_none (Nat.le_add_left 4 unit)]
      exact Bool.false_ne_true) (by omega)

/-- A machine of 64K that has just been switched on. -/
def newMachine : Machine := .ofConfig { memory := some .k64 } { lower := .zeroed, upper := .zeroed }

/-- The same after a program has set an ink and has enabled interrupts, one of which is pending. -/
def usedMachine : Machine :=
  { newMachine with
    cpu := { newMachine.cpu with
      regs := { newMachine.cpu.regs with pc := 0x1234, im := 1, iff1 := true, iff2 := true }
      intLatch := true }
    board := (newMachine.board.output 0x7F00 0x10).output 0x7F00 0x54 }

theorem inRange_usedMachine : InRange usedMachine where
  im := by decide
  pen := by decide
  inks := by decide
  control := by decide
  counter := by decide
  ramConfig := by decide
  crtcAddress := by decide
  crtc := by decide
  psg := by decide

/-! ## The fixed point -/

/-- **A snapshot is a fixed point.** Any machine of the model with as much memory takes the
snapshot of a machine whose registers are in range. All that a snapshot is made of is then
the same in both, and the second saves to the same bytes as the first. -/
theorem save_load_save (h : InRange m) (hword : m.board.memory.kilobytes < 0x10000)
    (hmodel : machine.model = m.model) (hsize : machine.board.memory.ram.size = m.board.memory.ram.size)
    (hm : TwoDrives m.board.drives.controller) (hmachine : TwoDrives machine.board.drives.controller) :
    ∃ m', load (save m) machine = .ok m' ∧ Carried m m' ∧ save m' = save m :=
  have hcarried := h.carried hm hmachine
  ⟨restored m machine, load_save hword hsize, hcarried, hcarried.save_eq hmodel⟩

/-- The snapshot of the machine in use is loaded into a new one. -/
theorem save_load_save_usedMachine : ∃ m', load (save usedMachine) newMachine = .ok m' ∧
    m'.cpu.regs.pc = 0x1234 ∧ m'.cpu.intLatch = true ∧ save m' = save usedMachine := by
  have hdrives : TwoDrives newMachine.board.drives.controller := twoDrives_ofConfig _ _
  obtain ⟨m', hload, hcarried, hsave⟩ :=
    save_load_save inRange_usedMachine (by decide) (show newMachine.model = usedMachine.model from rfl) rfl
      hdrives hdrives
  have hpc : m'.cpu.regs.pc = usedMachine.cpu.regs.pc := by rw [← hcarried.regs]
  exact ⟨m', hload, hpc, hcarried.intLatch, hsave⟩

end Snapshot

end AmstradCpc
