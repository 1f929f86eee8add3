/-
What is read back from a snapshot. A saved file is chunks strung together (`Saved`), and
the readers pick bytes out of it at fixed places, so that each part of a machine that is
loaded is the part that was saved, but for the bits that the loader does not keep.
`load_save` puts the parts together: a machine with as much memory as the saved one had
takes the snapshot, and is the machine `restored` afterwards.
-/
import AmstradCpc.Proofs.Bytes
import AmstradCpc.Proofs.Psg.Clock
import AmstradCpc.Snapshot

namespace AmstradCpc

/-- Bits that are set beside those that are kept do not matter. -/
theorem or_and_of_and_eq_zero {a c : UInt8} (h : a &&& c = 0) (b : UInt8) : (a ||| b) &&& c = b &&& c := by
  refine UInt8.toNat_inj.mp ?_
  rw [UInt8.toNat_and, UInt8.toNat_or, Nat.and_or_distrib_right, ← UInt8.toNat_and, h, UInt8.toNat_zero,
    Nat.zero_or, UInt8.toNat_and]

/-! ## Registers one after the other -/

theorem foldl_setIfInBounds {α : Type} {n : Nat} (value : Nat → α) (v : Vector α n) :
    (List.range n).foldl (fun v i => v.setIfInBounds i (value i)) v = .ofFn fun i => value i := by
  have upTo : ∀ count i (hi : i < n),
      ((List.range count).foldl (fun v i => v.setIfInBounds i (value i)) v)[i] =
        if i < count then value i else v[i] := by
    intro count
    induction count with
    | zero => simp
    | succ count ih =>
      intro i hi
      rw [List.range_succ, List.foldl_append, List.foldl_cons, List.foldl_nil,
        Vector.getElem_setIfInBounds, ih i hi]
      by_cases hcount : count = i
      · simp [hcount]
      · simp only [hcount, if_false, show i < count + 1 ↔ i < count by omega]
  ext i hi
  rw [upTo n i hi, if_pos hi, Vector.getElem_ofFn]

/-- A chip whose registers are set one after the other has what each of them keeps. -/
theorem foldl_pokes {σ : Type} {n : Nat} (put : Vector UInt8 n → σ) {poke : σ → Nat → UInt8 → σ}
    {mask : Nat → UInt8}
    (h : ∀ registers i v, poke (put registers) i v = put (registers.setIfInBounds i (v &&& mask i)))
    (value : Nat → UInt8) (registers : Vector UInt8 n) :
    (List.range n).foldl (fun chip i => poke chip i (value i)) (put registers) =
      put (.ofFn fun i => value i &&& mask i) := by
  rw [← foldl_setIfInBounds (fun i => value i &&& mask i) registers]
  exact List.foldl_hom put fun registers i => h registers i (value i)

namespace Crtc

/-- The bits that a register has. -/
def mask (i : Nat) : UInt8 := (registerTable[i]?.map (·.mask)).getD 0

theorem poke_eq (c : Crtc) (i : Nat) (v : UInt8) :
    c.poke i v = { c with registers := c.registers.setIfInBounds i (v &&& mask i) } := by
  by_cases hi : i < 18
  · simp [poke, mask, hi]
  · simp [poke, hi, Vector.setIfInBounds_eq_of_size_le (show 18 ≤ i by omega)]

theorem foldl_poke (value : Nat → UInt8) (c : Crtc) :
    (List.range 18).foldl (fun c i => c.poke i (value i)) c =
      { c with registers := .ofFn fun i => value i &&& mask i } :=
  (foldl_pokes (fun registers => { c with registers }) (fun _ _ _ => poke_eq ..) value c.registers :)

end Crtc

namespace Psg

theorem foldl_poke (value : Nat → UInt8) (p : Psg) :
    (List.range 16).foldl (fun p i => p.poke i (value i)) p =
      { p with registers := .ofFn fun i => value i &&& mask i } :=
  (foldl_pokes (fun registers => { p with registers }) (fun _ _ _ => poke_eq ..) value p.registers :)

end Psg

namespace Snapshot

/-! ## A saved file -/

/-- Where a file has the parts of a machine. -/
structure Saved (m : Machine) (file : ByteArray) : Prop where
  signature : HoldsAt file 0 signature
  version : HoldsAt file 0x10 (byteList [version])
  cpu : HoldsAt file 0x11 (byteList (cpuBytes m.cpu.regs))
  pen : HoldsAt file 0x2E (byteList [m.board.gateArray.pen])
  inks : HoldsAt file 0x2F (byteList m.board.gateArray.inks.toList)
  switches : HoldsAt file 0x40
    (byteList [0x80 ||| m.board.gateArray.control, 0xC0 ||| m.board.pager.ramConfig, m.board.crtc.address])
  crtc : HoldsAt file 0x43 (byteList m.board.crtc.registers.toList)
  ports : HoldsAt file 0x55 (byteList [m.board.pager.romSelect, m.board.ppi.portA, m.board.ppi.portB,
    m.board.ppi.portC, m.board.ppi.control, m.board.peripherals.psg.selected])
  psg : HoldsAt file 0x5B (byteList m.board.peripherals.psg.registers.toList)
  size : HoldsAt file 0x6B (byteList (wordBytes m.board.memory.kilobytes.toUInt16))
  drives : HoldsAt file 0x9C (byteList [flagByte m.board.drives.controller.motor,
    m.board.drives.controller.cylinder 0, m.board.drives.controller.cylinder 1,
    m.board.drives.controller.cylinder 2, m.board.drives.controller.cylinder 3, m.board.printer])
  interrupt : HoldsAt file 0xB2 (byteList [m.board.gateArray.delayed, m.board.gateArray.counter,
    flagByte m.cpu.intLatch])
  banks : HoldsAt file headerSize (joined (m.board.memory.ram.toList.map (·.bytes)))

theorem byteList_signature : byteList signature.toList = signature := by decide +kernel

theorem size_signature : signature.size = 8 := by decide +kernel

theorem length_zeros (count : Nat) : (zeros count).length = count := List.length_replicate

theorem length_wordBytes (w : UInt16) : (wordBytes w).length = 2 := rfl

theorem length_cpuBytes (r : Cpu.Registers) : (cpuBytes r).length = 29 := rfl

theorem saved_save (m : Machine) : Saved m (save m) := by
  have hfile := holdsAt_of_eq (show save m =
      byteList (header m) ++ joined (m.board.memory.ram.toList.map (·.bytes)) by
    rw [save, ← Array.foldl_toList, foldl_append])
  simp only [header, chipBytes, List.append_assoc, byteList_append, byteList_signature, ByteArray.append_assoc,
    holdsAt_append, size_byteList, size_signature, Vector.length_toList, length_zeros, length_wordBytes,
    length_cpuBytes, List.length_cons, List.length_nil, Nat.reduceAdd] at hfile
  obtain ⟨hsignature, -, hversion, hcpu, hpen, hinks, hswitches, hcrtc, hports, hpsg, hsize, -, -, hdrives, -,
    hinterrupt, -, hbanks⟩ := hfile
  exact ⟨hsignature, hversion, hcpu, hpen, hinks, hswitches, hcrtc, hports, hpsg, hsize, hdrives, hinterrupt,
    hbanks⟩

/-! ## Its parts -/

variable {m : Machine} {file : ByteArray}

theorem bitOf_flagByte (b : Bool) : bitOf (flagByte b) 0 = b := by
  cases b <;> rfl

theorem wordAt_wordBytes {start : Nat} {w : UInt16} (h : HoldsAt file start (byteList (wordBytes w))) :
    wordAt file start = w.toNat := by
  rw [wordAt, h.byteAt_list (by omega) (by rw [length_wordBytes]; omega),
    h.byteAt_list (by omega) (by rw [length_wordBytes]; omega), Nat.sub_self, Nat.add_sub_cancel_left]
  have hw := toNat_joinBytes (highByte w) (lowByte w)
  rw [joinBytes_halves] at hw
  rw [hw, wordBytes]
  simp only [List.getElem?_cons_zero, List.getElem?_cons_succ, Option.getD_some]
  omega

/-- The registers of the processor as they come back. The latch inside it is cleared, and it
is not halted. -/
def reloaded (r : Cpu.Registers) : Cpu.Registers := { r with im := r.im &&& 3, wz := 0, halted := false }

theorem Saved.registersOf (h : Saved m file) : registersOf file = reloaded m.cpu.regs := by
  have byte : ∀ i, 0x11 ≤ i → i < 0x2E → byteAt file i = (cpuBytes m.cpu.regs)[i - 0x11]?.getD 0 :=
    fun i hstart hi => h.cpu.byteAt_list hstart (by rw [length_cpuBytes]; exact hi)
  simp only [Snapshot.registersOf, wordOf, Nat.reduceAdd, byte, Nat.reduceLeDiff, Nat.reduceLT, Nat.reduceSub]
  simp [cpuBytes, wordBytes, Cpu.Flags.ofByte_toByte, joinBytes_halves, bitOf_flagByte, reloaded,
    Cpu.Registers.initial]

theorem Saved.loadGateArray (h : Saved m file) (g : GateArray) :
    loadGateArray file g = { g.setPen m.board.gateArray.pen with
      inks := m.board.gateArray.inks.map (· &&& 0x1F)
      control := m.board.gateArray.control &&& 0x1F } := by
  have hpen : byteAt file 0x2E = m.board.gateArray.pen := h.pen.byteAt_list (by decide) (by simp)
  have hcontrol : byteAt file 0x40 = 0x80 ||| m.board.gateArray.control :=
    h.switches.byteAt_list (by decide) (by simp)
  have hinks : Vector.ofFn (fun pen : Fin 17 => byteAt file (0x2F + pen) &&& 0x1F) =
      m.board.gateArray.inks.map (· &&& 0x1F) := by
    ext i hi
    rw [Vector.getElem_ofFn, Vector.getElem_map, h.inks.byteAt_vector hi]
  rw [Snapshot.loadGateArray, hpen, hcontrol, hinks, or_and_of_and_eq_zero rfl]

theorem Saved.ramConfig (h : Saved m file) : byteAt file 0x41 &&& 0x3F = m.board.pager.ramConfig &&& 0x3F := by
  have hbyte : byteAt file 0x41 = 0xC0 ||| m.board.pager.ramConfig :=
    h.switches.byteAt_list (by decide) (by simp)
  rw [hbyte, or_and_of_and_eq_zero rfl]

theorem Saved.loadCrtc (h : Saved m file) (c : Crtc) :
    loadCrtc file c = { c with
      address := m.board.crtc.address &&& 0x1F
      registers := .ofFn fun i => m.board.crtc.registers[i] &&& Crtc.mask i } := by
  have haddress : byteAt file 0x42 = m.board.crtc.address := h.switches.byteAt_list (by decide) (by simp)
  have hregisters : Vector.ofFn (fun i : Fin 18 => byteAt file (0x43 + i) &&& Crtc.mask i) =
      .ofFn fun i => m.board.crtc.registers[i] &&& Crtc.mask i := by
    ext i hi
    rw [Vector.getElem_ofFn, Vector.getElem_ofFn, h.crtc.byteAt_vector hi]
    rfl
  rw [Snapshot.loadCrtc, Crtc.foldl_poke fun i => byteAt file (0x43 + i), hregisters, Crtc.select, haddress]

theorem Saved.byteAt_ports (h : Saved m file) {i : Nat} (hstart : 0x55 ≤ i) (hi : i < 0x5B) :
    byteAt file i = [m.board.pager.romSelect, m.board.ppi.portA, m.board.ppi.portB, m.board.ppi.portC,
      m.board.ppi.control, m.board.peripherals.psg.selected][i - 0x55]?.getD 0 :=
  h.ports.byteAt_list hstart hi

theorem Saved.ppiOf (h : Saved m file) : ppiOf file = m.board.ppi := by
  have hportA : byteAt file 0x56 = m.board.ppi.portA := h.byteAt_ports (by decide) (by decide)
  have hportB : byteAt file 0x57 = m.board.ppi.portB := h.byteAt_ports (by decide) (by decide)
  have hportC : byteAt file 0x58 = m.board.ppi.portC := h.byteAt_ports (by decide) (by decide)
  have hcontrol : byteAt file 0x59 = m.board.ppi.control := h.byteAt_ports (by decide) (by decide)
  rw [Snapshot.ppiOf, hportA, hportB, hportC, hcontrol]

theorem Saved.loadPsg (h : Saved m file) (p : Psg) :
    loadPsg file p = { p with
      selected := m.board.peripherals.psg.selected
      registers := .ofFn fun i => m.board.peripherals.psg.registers[i] &&& Psg.mask i } := by
  have hselected : byteAt file 0x5A = m.board.peripherals.psg.selected :=
    h.byteAt_ports (by decide) (by decide)
  have hregisters : Vector.ofFn (fun i : Fin 16 => byteAt file (0x5B + i) &&& Psg.mask i) =
      .ofFn fun i => m.board.peripherals.psg.registers[i] &&& Psg.mask i := by
    ext i hi
    rw [Vector.getElem_ofFn, Vector.getElem_ofFn, h.psg.byteAt_vector hi]
    rfl
  rw [Snapshot.loadPsg, Psg.foldl_poke fun i => byteAt file (0x5B + i), hregisters, Psg.select, hselected]

theorem Saved.loadPeripherals (h : Saved m file) (p : Peripherals) :
    loadPeripherals file p = { p with
      psg := { p.psg with
        selected := m.board.peripherals.psg.selected
        registers := .ofFn fun i => m.board.peripherals.psg.registers[i] &&& Psg.mask i }
      keyboard := { p.keyboard with line := m.board.ppi.portC &&& 0x0F }
      psgData := m.board.ppi.portA
      psgFunction := .ofBits (m.board.ppi.portC >>> 6)
      tapeMotor := bitOf m.board.ppi.portC 4
      tapeWrite := bitOf m.board.ppi.portC 5 } := by
  have hportA : byteAt file 0x56 = m.board.ppi.portA := h.byteAt_ports (by decide) (by decide)
  have hportC : byteAt file 0x58 = m.board.ppi.portC := h.byteAt_ports (by decide) (by decide)
  simp only [Snapshot.loadPeripherals, h.loadPsg, hportA, hportC]

/-- A machine with as many banks has the contents of all of them afterwards. -/
theorem Saved.loadMemory (h : Saved m file) {memory : Memory}
    (hsize : memory.ram.size = m.board.memory.ram.size) :
    loadMemory file m.board.memory.ram.size memory = { memory with ram := m.board.memory.ram } := by
  have hbank : ∀ i (hi : i < m.board.memory.ram.size),
      Block.ofBytes bankSize (file.extract (headerSize + i * bankSize) (headerSize + (i + 1) * bankSize)) =
        m.board.memory.ram[i] := fun i hi => by
    have hbytes := (h.banks.block (i := i) hi).extract
    rw [Array.getElem_toList, m.board.memory.ram[i].size_eq, Nat.add_assoc, ← Nat.succ_mul] at hbytes
    refine Block.ext ?_
    rw [Block.ofBytes, hbytes]
    have hwhole := (holdsAt_of_eq (rfl : m.board.memory.ram[i].bytes = _)).sliceOrZero
    rwa [m.board.memory.ram[i].size_eq] at hwhole
  have hram : memory.ram.mapIdx (fun i _ =>
      if i < m.board.memory.ram.size then
        Block.ofBytes bankSize (file.extract (headerSize + i * bankSize) (headerSize + (i + 1) * bankSize))
      else Bank.zeroed) = m.board.memory.ram := by
    refine Array.ext (by rw [Array.size_mapIdx, hsize]) fun i _ hi => ?_
    rw [Array.getElem_mapIdx, if_pos hi, hbank i hi]
  rw [Snapshot.loadMemory, hram]

theorem Saved.byteAt_drives (h : Saved m file) {i : Nat} (hstart : 0x9C ≤ i) (hi : i < 0xA2) :
    byteAt file i = [flagByte m.board.drives.controller.motor, m.board.drives.controller.cylinder 0,
      m.board.drives.controller.cylinder 1, m.board.drives.controller.cylinder 2,
      m.board.drives.controller.cylinder 3, m.board.printer][i - 0x9C]?.getD 0 :=
  h.drives.byteAt_list hstart hi

/-- The heads of all drives are moved. -/
def seekAll (f : Fdc) (cylinder : Nat → UInt8) : Fdc :=
  (List.range 4).foldl (fun f unit => f.setCylinder unit (cylinder unit)) f

theorem Saved.loadDrives (h : Saved m file) (d : Drives) :
    loadDrives file d = { d with
      controller := seekAll (d.controller.setMotor m.board.drives.controller.motor)
        m.board.drives.controller.cylinder } := by
  have hmotor : motorOf file = m.board.drives.controller.motor := by
    rw [motorOf, motorPlace, h.byteAt_drives (by decide) (by decide)]
    exact bitOf_flagByte _
  have hcylinder : ∀ unit < 4, byteAt file (cylindersPlace + unit) = m.board.drives.controller.cylinder unit
    | 0, _ | 1, _ | 2, _ | 3, _ => h.byteAt_drives (by decide) (by decide)
  simp only [Snapshot.loadDrives, hmotor, Drives.setMotor, seekAll, List.range_succ, List.range_zero,
    List.nil_append, List.cons_append, List.foldl_cons, List.foldl_nil, hcylinder 0 (by decide),
    hcylinder 1 (by decide), hcylinder 2 (by decide), hcylinder 3 (by decide)]

theorem Saved.validate (h : Saved m file) (hsize : m.board.memory.kilobytes < 0x10000) {installed : Nat}
    (hinstalled : m.board.memory.kilobytes ≤ installed) :
    validate file installed = .ok m.board.memory.ram.size := by
  have hword : wordAt file sizePlace = m.board.memory.kilobytes := by
    rw [sizePlace, wordAt_wordBytes h.size, Nat.toUInt16, UInt16.toNat_ofNat', Nat.mod_eq_of_lt hsize]
  have hbanks : (joined (m.board.memory.ram.toList.map (·.bytes))).size =
      m.board.memory.ram.size * bankSize := by
    rw [size_joined_blocks, Array.length_toList]
  have hfits := h.banks.fits
  rw [hbanks] at hfits
  have hkb : m.board.memory.kilobytes = m.board.memory.ram.size * 16 := rfl
  rw [Snapshot.validate, if_neg (by omega), h.signature.beginsWith]
  simp only [hword, hkb, Nat.mul_mod_left, ne_eq, not_true_eq_false, if_false, Bool.not_true,
    Bool.false_eq_true]
  rw [if_neg (by omega), if_neg (by simp only [bankSize] at hfits; omega), Nat.mul_div_cancel _ (by decide)]

/-! ## The whole machine -/

/-- What loading the snapshot of `m` makes of a machine with as much memory. -/
def restored (m machine : Machine) : Machine :=
  let b := m.board
  let old := machine.board
  { machine with
    cpu := { machine.cpu.reset with regs := reloaded m.cpu.regs, intLatch := m.cpu.intLatch }
    board := Board.remap { old with
      memory := { old.memory with ram := b.memory.ram }
      pager := { old.pager with ramConfig := b.pager.ramConfig &&& 0x3F, romSelect := b.pager.romSelect }
      gateArray := { old.gateArray.setPen b.gateArray.pen with
        inks := b.gateArray.inks.map (· &&& 0x1F)
        control := b.gateArray.control &&& 0x1F
        delayed := b.gateArray.delayed
        counter := b.gateArray.counter &&& 0x3F }
      crtc := { old.crtc with
        address := b.crtc.address &&& 0x1F
        registers := .ofFn fun i => b.crtc.registers[i] &&& Crtc.mask i }
      ppi := b.ppi
      peripherals := { old.peripherals with
        psg := { old.peripherals.psg with
          selected := b.peripherals.psg.selected
          registers := .ofFn fun i => b.peripherals.psg.registers[i] &&& Psg.mask i }
        keyboard := { old.peripherals.keyboard with line := b.ppi.portC &&& 0x0F }
        psgData := b.ppi.portA
        psgFunction := .ofBits (b.ppi.portC >>> 6)
        tapeMotor := bitOf b.ppi.portC 4
        tapeWrite := bitOf b.ppi.portC 5 }
      drives := { old.drives with
        controller := seekAll (old.drives.controller.setMotor b.drives.controller.motor)
          b.drives.controller.cylinder }
      printer := b.printer } }

section Parts

variable (m machine : Machine)

theorem cpu_restored : (restored m machine).cpu =
    { machine.cpu.reset with regs := reloaded m.cpu.regs, intLatch := m.cpu.intLatch } := rfl

theorem memory_restored : (restored m machine).board.memory =
    { machine.board.memory with ram := m.board.memory.ram } := rfl

theorem pager_restored : (restored m machine).board.pager =
    Pager.select { machine.board.pager with
        ramConfig := m.board.pager.ramConfig &&& 0x3F, romSelect := m.board.pager.romSelect }
      { machine.board.memory with ram := m.board.memory.ram } (m.board.gateArray.control &&& 0x1F) := rfl

theorem gateArray_restored : (restored m machine).board.gateArray =
    { machine.board.gateArray.setPen m.board.gateArray.pen with
      inks := m.board.gateArray.inks.map (· &&& 0x1F)
      control := m.board.gateArray.control &&& 0x1F
      delayed := m.board.gateArray.delayed
      counter := m.board.gateArray.counter &&& 0x3F } := rfl

theorem crtc_restored : (restored m machine).board.crtc =
    { machine.board.crtc with
      address := m.board.crtc.address &&& 0x1F
      registers := .ofFn fun i => m.board.crtc.registers[i] &&& Crtc.mask i } := rfl

theorem psg_restored : (restored m machine).board.peripherals.psg =
    { machine.board.peripherals.psg with
      selected := m.board.peripherals.psg.selected
      registers := .ofFn fun i => m.board.peripherals.psg.registers[i] &&& Psg.mask i } := rfl

theorem controller_restored : (restored m machine).board.drives.controller =
    seekAll (machine.board.drives.controller.setMotor m.board.drives.controller.motor)
      m.board.drives.controller.cylinder := rfl

end Parts

theorem Saved.load (h : Saved m file) (hword : m.board.memory.kilobytes < 0x10000) {machine : Machine}
    (hsize : machine.board.memory.ram.size = m.board.memory.ram.size) :
    load file machine = .ok (restored m machine) := by
  have hversion : hasDriveState file = true := by
    rw [hasDriveState, versionPlace, h.version.byteAt_list (by decide) (by simp)]
    decide
  have hromSelect : byteAt file 0x55 = m.board.pager.romSelect := h.byteAt_ports (by decide) (by decide)
  have hprinter : byteAt file printerPlace = m.board.printer := h.byteAt_drives (by decide) (by decide)
  have hdelayed : byteAt file delayedPlace = m.board.gateArray.delayed :=
    h.interrupt.byteAt_list (by decide) (by simp [delayedPlace])
  have hcounter : byteAt file counterPlace = m.board.gateArray.counter :=
    h.interrupt.byteAt_list (by decide) (by simp [counterPlace])
  have hinterrupt : byteAt file interruptPlace = flagByte m.cpu.intLatch :=
    h.interrupt.byteAt_list (by decide) (by simp [interruptPlace])
  have hlatch : ∀ cpu : Cpu, cpu.intLatch = false →
      (if flagByte m.cpu.intLatch != 0 then cpu.raiseInt else cpu) =
        { cpu with intLatch := m.cpu.intLatch } := by
    intro cpu hcpu
    cases m.cpu.intLatch
    · cases cpu
      cases hcpu
      rfl
    · rfl
  have hinstalled : m.board.memory.kilobytes ≤ machine.board.memory.kilobytes := by
    rw [Memory.kilobytes, Memory.kilobytes, hsize]
  rw [Snapshot.load, h.validate hword hinstalled]
  simp only [bind, Except.bind, loadState, hversion, if_true, loadDriveState, h.registersOf, h.loadMemory hsize,
    h.ramConfig, hromSelect, h.loadGateArray, h.loadCrtc, h.ppiOf, h.loadPeripherals, h.loadDrives, hprinter,
    hdelayed, hcounter, hinterrupt, hlatch, Cpu.reset]
  rfl

/-- A machine with as much memory takes the snapshot. The header has a word for the number of
kilobytes. -/
theorem load_save {m machine : Machine} (hword : m.board.memory.kilobytes < 0x10000)
    (hsize : machine.board.memory.ram.size = m.board.memory.ram.size) :
    load (save m) machine = .ok (restored m machine) :=
  (saved_save m).load hword hsize

end Snapshot

end AmstradCpc
