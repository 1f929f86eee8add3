/-
Port addresses. Each device looks at a few address lines only, so an access may reach several of them. They do
not get into each other's way: one that is not selected stays as it is, and one that is selected takes the byte
as it would if the lines of all the others were high (`ports_isolate_devices`). Only the memory map has to do with two
of them, and it comes out as if both had been changed at once. A read changes nothing but the disk controller,
when that delivers data.
-/
import AmstradCpc.Proofs.Machine.Sync

namespace AmstradCpc

/-- The selected expansion counts for what is read only, so a map that has just been worked out with
another one is as good as the map before. -/
theorem Pager.select_romSelect (p : Pager) (m : Memory) (control romSelect : UInt8) :
    ({ p.select m control with romSelect } : Pager).select m control =
      ({ p with romSelect } : Pager).select m control := by
  have h := Pager.writesFor_select p m control
  have hwrites : ({ p.select m control with romSelect } : Pager).writesFor m.ram.size =
      ({ p with romSelect } : Pager).writesFor m.ram.size := h
  simp only [Pager.select] at hwrites ⊢
  rw [hwrites]
  rfl

namespace Board

/-! ## Devices -/

/-- What can be written to through a port. The RAM configuration belongs to the gate array, and to the parallel
interface all that is behind it. -/
inductive Device where
  | gateArray
  | crtc
  | romSelect
  | printer
  | ppi
  | drives
  deriving DecidableEq

namespace Device

/-- The address lines that select a device while all of them are low. -/
def lines : Device → List UInt16
  | .gateArray => [15]
  | .crtc => [14]
  | .romSelect => [13]
  | .printer => [12]
  | .ppi => [11]
  | .drives => [10, 7]

/-- The lines of all the other devices. -/
def others : Device → UInt16
  | .gateArray => 0x7C80
  | .crtc => 0xBC80
  | .romSelect => 0xDC80
  | .printer => 0xEC80
  | .ppi => 0xF480
  | .drives => 0xF800

/-- The port with which a device is addressed alone: the lines of the others are high. -/
def alone (d : Device) (port : UInt16) : UInt16 := port ||| d.others

/-- A device is the same on two boards. -/
def Same : Device → Board → Board → Prop
  | .gateArray, b, b' => b'.gateArray = b.gateArray ∧ b'.pager.ramConfig = b.pager.ramConfig
  | .crtc, b, b' => b'.crtc = b.crtc
  | .romSelect, b, b' => b'.pager.romSelect = b.pager.romSelect
  | .printer, b, b' => b'.printer = b.printer
  | .ppi, b, b' => b'.ppi = b.ppi ∧ b'.peripherals = b.peripherals
  | .drives, b, b' => b'.drives = b.drives

/-- What a device does with a byte, apart from the others. -/
def take (b : Board) (port : UInt16) (v : UInt8) : Device → Board
  | .gateArray => b.writeGateArray v
  | .crtc => b.writeCrtc (register port) v
  | .romSelect => b.selectRom v
  | .printer => { b with printer := v }
  | .ppi => b.writePpi (register port) v
  | .drives => b.writeDrives (driveRegister port) v

end Device

/-- A port address selects a device. The drives must be there to be selected. -/
def selects (b : Board) (port : UInt16) (d : Device) : Bool :=
  d.lines.all (low port) && (d != .drives || b.hasDisc)

/-- A device is selected that can be read: the registers of the display controller, the ports of the parallel
interface, or the status or the data of the disk controller. -/
def readable (b : Board) (port : UInt16) : Bool :=
  low port 14 && register port == 3 || low port 11 && register port != 3 ||
    b.selects port .drives && !low port 8

/-! ## Address lines -/

theorem shiftRight_or_and (p q line mask : UInt16) :
    (p ||| q) >>> line &&& mask = (p >>> line &&& mask) ||| (q >>> line &&& mask) := by
  rw [UInt16.shiftRight_or]
  simp [← UInt16.toBitVec_inj, BitVec.and_or_distrib_right]

theorem low_or (p q line : UInt16) : low (p ||| q) line = (low p line && low q line) := by
  rw [Bool.eq_iff_iff]
  simp only [low, shiftRight_or_and, Bool.and_eq_true, beq_iff_eq, UInt16.or_eq_zero_iff]

theorem low_others (d e : Device) : ∀ line ∈ e.lines, low d.others line = decide (e = d) := by
  have h : e.lines.all (fun line => low d.others line == decide (e = d)) = true := by
    cases d <;> cases e <;> rfl
  exact fun line hline => beq_iff_eq.mp (List.all_eq_true.mp h line hline)

/-- With the lines of the others high, a device is selected if it was before, and no other one is. -/
theorem selects_alone (b : Board) (port : UInt16) (d e : Device) :
    b.selects (d.alone port) e = true ↔ b.selects port e = true ∧ e = d := by
  have hline : ∀ line ∈ e.lines, low (d.alone port) line = true ↔ low port line = true ∧ e = d := by
    intro line hline
    rw [Device.alone, low_or, low_others d e line hline, Bool.and_eq_true, decide_eq_true_eq]
  simp only [selects, Bool.and_eq_true, List.all_eq_true]
  constructor
  · rintro ⟨hlines, hdisc⟩
    obtain ⟨line, hmem⟩ : ∃ line, line ∈ e.lines := by cases e <;> exact ⟨_, List.mem_cons_self⟩
    exact ⟨⟨fun l hl => ((hline l hl).mp (hlines l hl)).1, hdisc⟩, ((hline line hmem).mp (hlines line hmem)).2⟩
  · rintro ⟨⟨hlines, hdisc⟩, he⟩
    exact ⟨fun l hl => (hline l hl).mpr ⟨hlines l hl, he⟩, hdisc⟩

theorem register_alone (d : Device) (port : UInt16) : register (d.alone port) = register port := by
  have hzero : d.others >>> 8 &&& 3 = 0 := by cases d <;> decide +kernel
  rw [register, Device.alone, shiftRight_or_and, hzero, UInt16.or_zero, register]

theorem low_alone {d : Device} {line : UInt16} (h : low d.others line = true) (port : UInt16) :
    low (d.alone port) line = low port line := by
  rw [Device.alone, low_or, h, Bool.and_true]

theorem driveRegister_alone (d : Device) (port : UInt16) : driveRegister (d.alone port) = driveRegister port := by
  have h8 : low d.others 8 = true := by cases d <;> decide +kernel
  have h0 : low d.others 0 = true := by cases d <;> decide +kernel
  rw [driveRegister, low_alone h8, low_alone h0, driveRegister]

/-! ## One device after the other -/

namespace Device

theorem Same.refl (d : Device) (b : Board) : d.Same b b := by
  cases d with
  | gateArray | ppi => exact ⟨rfl, rfl⟩
  | crtc | romSelect | printer | drives => exact rfl

theorem Same.trans {d : Device} {b b' b'' : Board} (h : d.Same b b') (h' : d.Same b' b'') : d.Same b b'' := by
  cases d with
  | gateArray | ppi => exact ⟨h'.1.trans h.1, h'.2.trans h.2⟩
  | crtc | romSelect | printer | drives => exact Eq.trans h' h

theorem Same.symm {d : Device} {b b' : Board} (h : d.Same b b') : d.Same b' b := by
  cases d with
  | gateArray | ppi => exact ⟨h.1.symm, h.2.symm⟩
  | crtc | romSelect | printer | drives => exact Eq.symm h

variable {d e : Device} (b : Board) (port : UInt16) (v : UInt8)

/-- A device leaves the others alone. -/
theorem same_take_of_ne (h : d ≠ e) : d.Same b (e.take b port v) := by
  cases e with
  | gateArray =>
    simp only [take, writeGateArray]
    cases d with
    | gateArray => exact absurd rfl h
    | ppi => split <;> exact ⟨rfl, rfl⟩
    | crtc | romSelect | printer | drives => split <;> exact rfl
  | crtc =>
    simp only [take, writeCrtc]
    cases d with
    | crtc => exact absurd rfl h
    | gateArray | ppi => split <;> exact ⟨rfl, rfl⟩
    | romSelect | printer | drives => split <;> exact rfl
  | romSelect | printer | ppi =>
    cases d <;> first | exact absurd rfl h | exact rfl | exact ⟨rfl, rfl⟩
  | drives =>
    simp only [take]
    cases driveRegister port <;> cases d <;> first | exact absurd rfl h | exact rfl | exact ⟨rfl, rfl⟩

/-- What a device does depends on itself only. -/
theorem Same.take {b b' : Board} (h : d.Same b b') (port : UInt16) (v : UInt8) :
    d.Same (d.take b port v) (d.take b' port v) := by
  cases d with
  | gateArray =>
    simp only [Same, Device.take, writeGateArray, h.1]
    split <;> exact ⟨rfl, by first | exact h.2 | rfl⟩
  | crtc =>
    have hcrtc : b'.crtc = b.crtc := h
    simp only [Same, Device.take, writeCrtc, hcrtc]
    split <;> first | rfl | exact h
  | romSelect | printer => exact rfl
  | ppi =>
    simp only [Same, Device.take, writePpi, h.1, h.2, and_self]
  | drives =>
    have hdrives : b'.drives = b.drives := h
    simp only [Same, Device.take]
    cases driveRegister port <;> simp only [writeDrives, hdrives]

end Device

/-- What no access to a port changes: the memory chips, which devices there are, the keys that are pressed,
and the lines that come from outside. -/
structure Fixed (b b' : Board) : Prop where
  memory : b'.memory = b.memory
  hasDisc : b'.hasDisc = b.hasDisc
  pressed : b'.peripherals.keyboard.pressed = b.peripherals.keyboard.pressed
  signals : b'.peripherals.signals = b.peripherals.signals

theorem Fixed.refl (b : Board) : b.Fixed b := ⟨rfl, rfl, rfl, rfl⟩

theorem Fixed.trans {b b' b'' : Board} (h : b.Fixed b') (h' : b'.Fixed b'') : b.Fixed b'' :=
  ⟨h'.memory.trans h.memory, h'.hasDisc.trans h.hasDisc, h'.pressed.trans h.pressed, h'.signals.trans h.signals⟩

theorem pressed_drive (p : Peripherals) (port : Ppi.Port) (v : UInt8) :
    (p.drive port v).keyboard.pressed = p.keyboard.pressed := by
  cases port with
  | b => rfl
  | a | c =>
    simp only [Peripherals.drive]
    rw [Peripherals.drivePsg_eq]

theorem pressed_driveAll (p : Peripherals) (writes : List (Ppi.Port × UInt8)) :
    (p.driveAll writes).keyboard.pressed = p.keyboard.pressed := by
  induction writes generalizing p with
  | nil => rfl
  | cons write writes ih => rw [Peripherals.driveAll_cons, ih, pressed_drive]

theorem fixed_take (b : Board) (port : UInt16) (v : UInt8) (d : Device) : b.Fixed (d.take b port v) := by
  cases d with
  | gateArray =>
    simp only [Device.take, writeGateArray]
    split <;> exact ⟨rfl, rfl, rfl, rfl⟩
  | crtc =>
    simp only [Device.take, writeCrtc]
    split <;> exact ⟨rfl, rfl, rfl, rfl⟩
  | romSelect | printer => exact ⟨rfl, rfl, rfl, rfl⟩
  | ppi => exact ⟨rfl, rfl, pressed_driveAll .., Peripherals.signals_driveAll ..⟩
  | drives =>
    simp only [Device.take]
    cases driveRegister port <;> exact ⟨rfl, rfl, rfl, rfl⟩

theorem Fixed.selects {b b' : Board} (h : b.Fixed b') (port : UInt16) (d : Device) :
    b'.selects port d = b.selects port d := by
  rw [Board.selects, h.hasDisc, Board.selects]

/-! ## An access -/

/-- A device takes a byte if it is selected. -/
def offer (b : Board) (port : UInt16) (v : UInt8) (d : Device) : Board :=
  if b.selects port d then d.take b port v else b

/-- The devices in the order in which they take a byte. -/
def Device.all : List Device := [.gateArray, .crtc, .romSelect, .printer, .ppi, .drives]

theorem output_eq (b : Board) (port : UInt16) (v : UInt8) :
    b.output port v = Device.all.foldl (offer · port v) b := by
  simp [Device.all, offer, Device.take, selects, Device.lines, output, selectsDrives]

variable {d e : Device}

theorem fixed_offer (b : Board) (port : UInt16) (v : UInt8) (d : Device) : b.Fixed (b.offer port v d) := by
  rw [offer]
  split
  · exact fixed_take b port v d
  · exact .refl b

theorem same_offer_of_ne (b : Board) (port : UInt16) (v : UInt8) (h : d ≠ e) : d.Same b (b.offer port v e) := by
  rw [offer]
  split
  · exact Device.same_take_of_ne b port v h
  · exact .refl d b

theorem Device.Same.offer {b b' : Board} (h : d.Same b b') (hfixed : b.Fixed b') (port : UInt16) (v : UInt8) :
    d.Same (b.offer port v d) (b'.offer port v d) := by
  rw [Board.offer, Board.offer, hfixed.selects]
  split
  · exact h.take port v
  · exact h

theorem fixed_foldl (port : UInt16) (v : UInt8) : ∀ (devices : List Device) (b : Board),
    b.Fixed (devices.foldl (offer · port v) b)
  | [], b => .refl b
  | e :: devices, b => (fixed_offer b port v e).trans (fixed_foldl port v devices _)

/-- Among devices that take a byte one after the other, each does what it would do alone. -/
theorem same_foldl (port : UInt16) (v : UInt8) : ∀ (devices : List Device) (b : Board), devices.Nodup →
    d.Same (if d ∈ devices then b.offer port v d else b) (devices.foldl (offer · port v) b)
  | [], b, _ => by
    rw [if_neg List.not_mem_nil]
    exact .refl d b
  | e :: devices, b, hnodup => by
    obtain ⟨hnot, hnodup⟩ := List.nodup_cons.mp hnodup
    have hrest := same_foldl port v devices (b.offer port v e) hnodup
    rw [List.foldl_cons]
    by_cases he : d = e
    · subst he
      rw [if_neg hnot] at hrest
      rw [if_pos List.mem_cons_self]
      exact hrest
    · have hsame : d.Same b (b.offer port v e) := same_offer_of_ne b port v he
      have hmem : (d ∈ e :: devices) ↔ d ∈ devices := by simp [he]
      refine Device.Same.trans ?_ hrest
      simp only [hmem]
      split
      · exact hsame.offer (fixed_offer b port v e) port v
      · exact hsame

theorem same_output (b : Board) (port : UInt16) (v : UInt8) (d : Device) :
    d.Same (b.offer port v d) (b.output port v) := by
  have hmem : d ∈ Device.all := by cases d <;> decide
  have h := same_foldl (d := d) port v Device.all b (by decide)
  rw [if_pos hmem] at h
  rwa [output_eq]

/-! ## The memory map -/

/-- The map is worked out anew, from what it was, with both registers and the ROM enables as they are now. -/
def Remapped (b b' : Board) : Prop :=
  b'.pager = ({ b.pager with ramConfig := b'.pager.ramConfig, romSelect := b'.pager.romSelect } : Pager).select
    b'.memory b'.gateArray.control

/-- The gate array has the map worked out anew for the upper half of the bytes only. -/
theorem pager_writeGateArray (b : Board) (v : UInt8) :
    (v < 0x80 → (b.writeGateArray v).pager = b.pager) ∧ (0x80 ≤ v → b.Remapped (b.writeGateArray v)) := by
  have hlow : ∀ v : UInt8, v < 0x80 → v >>> 6 = 0 ∨ v >>> 6 = 1 := forall_byte (by decide +kernel)
  have hhigh : ∀ v : UInt8, 0x80 ≤ v → v >>> 6 = 2 ∨ v >>> 6 = 3 := forall_byte (by decide +kernel)
  constructor
  · intro hv
    rcases hlow v hv with h | h <;> simp only [writeGateArray, GateArray.write, h]
  · intro hv
    rcases hhigh v hv with h | h <;> simp only [Remapped, writeGateArray, GateArray.write, h] <;> rfl

/-- Working the map out once more, with another expansion selected, is as good as doing it once. -/
theorem Remapped.selectRom {b b' : Board} (h : b.Remapped b') (v : UInt8) : b.Remapped (b'.selectRom v) := by
  let p : Pager := { b.pager with ramConfig := b'.pager.ramConfig, romSelect := b'.pager.romSelect }
  have hpager : b'.pager = p.select b'.memory b'.gateArray.control := h
  have hagain := p.select_romSelect b'.memory b'.gateArray.control v
  rw [← hpager] at hagain
  exact hagain

theorem remapped_selectRom {b b' : Board} (h : b'.pager = b.pager) (v : UInt8) : b.Remapped (b'.selectRom v) := by
  simp only [Remapped, selectRom, remap, h]
  rfl

theorem pager_offer_of_ne (b : Board) (port : UInt16) (v : UInt8) (hgate : d ≠ .gateArray)
    (hrom : d ≠ .romSelect) : (b.offer port v d).pager = b.pager := by
  rw [offer]
  split
  · cases d with
    | gateArray => exact absurd rfl hgate
    | romSelect => exact absurd rfl hrom
    | printer | ppi => rfl
    | crtc =>
      simp only [Device.take, writeCrtc]
      split <;> rfl
    | drives =>
      simp only [Device.take]
      cases driveRegister port <;> rfl
  · rfl

theorem pager_offer_romSelect {b b' : Board} (hfixed : b.Fixed b') (hpager : b'.pager = b.pager)
    (hgate : b'.gateArray = b.gateArray) (port : UInt16) (v : UInt8) :
    (b'.offer port v .romSelect).pager = (b.offer port v .romSelect).pager := by
  rw [offer, hfixed.selects, offer]
  split
  · simp only [Device.take, Board.selectRom, remap, hpager, hfixed.memory, hgate]
  · exact hpager

/-- Only two of the devices have to do with the map. -/
theorem pager_output (b : Board) (port : UInt16) (v : UInt8) :
    (b.output port v).pager = ((b.offer port v .gateArray).offer port v .romSelect).pager := by
  let b' := b.offer port v .gateArray
  have hsame : Device.gateArray.Same b' (b'.offer port v .crtc) := same_offer_of_ne b' port v nofun
  have hpager : (b'.offer port v .crtc).pager = b'.pager := pager_offer_of_ne b' port v nofun nofun
  have hrom : ((b'.offer port v .crtc).offer port v .romSelect).pager = (b'.offer port v .romSelect).pager :=
    pager_offer_romSelect (fixed_offer b' port v .crtc) hpager hsame.1 port v
  rw [← hrom]
  simp only [output_eq, Device.all, List.foldl_cons, List.foldl_nil]
  rw [pager_offer_of_ne (d := .drives) _ port v nofun nofun, pager_offer_of_ne (d := .ppi) _ port v nofun nofun,
    pager_offer_of_ne (d := .printer) _ port v nofun nofun]

theorem selects_gateArray (b : Board) (port : UInt16) : b.selects port .gateArray = low port 15 := by
  simp [selects, Device.lines]

theorem selects_romSelect (b : Board) (port : UInt16) : b.selects port .romSelect = low port 13 := by
  simp [selects, Device.lines]

/-- The map is worked out anew if the access selects an expansion, or the gate array with a byte of the upper
half, and otherwise it stays. -/
theorem map_output (b : Board) (port : UInt16) (v : UInt8) :
    if low port 13 = true ∨ low port 15 = true ∧ 0x80 ≤ v then b.Remapped (b.output port v)
    else (b.output port v).pager = b.pager := by
  let b' := b.offer port v .gateArray
  let b'' := b'.offer port v .romSelect
  have hsame : Device.gateArray.Same b' b'' := same_offer_of_ne b' port v nofun
  have hfixed : b.Fixed b'' := (fixed_offer b port v .gateArray).trans (fixed_offer b' port v .romSelect)
  have hmemory : (b.output port v).memory = b''.memory := (memory_output b port v).trans hfixed.memory.symm
  have hgate : (b.output port v).gateArray = b''.gateArray :=
    (same_output b port v .gateArray).1.trans hsame.1.symm
  have hfirst : if low port 15 = true ∧ 0x80 ≤ v then b.Remapped b' else b'.pager = b.pager := by
    obtain ⟨hkept, hanew⟩ := b.pager_writeGateArray v
    simp only [b', offer, selects_gateArray, Device.take]
    by_cases hlow : low port 15 = true
    · rw [if_pos hlow]
      split
      · next h => exact hanew h.2
      · next h => exact hkept (UInt8.not_le.mp fun hv => h ⟨hlow, hv⟩)
    · rw [if_neg hlow, if_neg fun h => hlow h.1]
  have hsecond : b'' = if low port 13 = true then b'.selectRom v else b' := by
    simp only [b'', offer, selects_romSelect, Device.take]
  rw [Remapped, pager_output, hmemory, hgate]
  show if _ then b.Remapped b'' else b''.pager = b.pager
  rw [hsecond]
  by_cases hrom : low port 13 = true
  · rw [if_pos (.inl hrom), if_pos hrom]
    split at hfirst
    · exact hfirst.selectRom v
    · exact remapped_selectRom hfirst v
  · simpa [hrom] using hfirst

/-! ## Writing and reading -/

/-- What is left of a board after a write to a port. -/
structure Written (b : Board) (port : UInt16) (v : UInt8) (b' : Board) : Prop where
  /-- A device that is not selected stays as it is. -/
  unselected : ∀ d, b.selects port d = false → d.Same b b'
  /-- A device that is selected could be addressed alone, with the same register, -/
  alone : ∀ d, b.selects port d = true → (∀ e, b.selects (d.alone port) e = true ↔ e = d) ∧
    register (d.alone port) = register port ∧ driveRegister (d.alone port) = driveRegister port
  /-- and it is as it would be then. -/
  selected : ∀ d, b.selects port d = true → d.Same (b.output (d.alone port) v) b'
  /-- The memory map follows from both registers at once, or stays. -/
  map : if low port 13 = true ∨ low port 15 = true ∧ 0x80 ≤ v then b.Remapped b' else b'.pager = b.pager
  fixed : b.Fixed b'

/-- What is read from a port, and what is left of the board. -/
structure ReadFrom (b : Board) (port : UInt16) (v : UInt8) (b' : Board) : Prop where
  /-- Nothing changes unless the disk controller delivers data, -/
  kept : ¬(b.selects port .drives = true ∧ low port 8 = false ∧ low port 0 = false) → b' = b
  /-- and then nothing but the disk controller. -/
  controller : ∃ controller, b' = { b with drives := { b.drives with controller } }
  floating : b.readable port = false → v = 0xFF

theorem take_alone (b : Board) (port : UInt16) (v : UInt8) (d : Device) :
    d.take b (d.alone port) v = d.take b port v := by
  cases d <;> simp only [Device.take, register_alone, driveRegister_alone]

theorem written_output (b : Board) (port : UInt16) (v : UInt8) : b.Written port v (b.output port v) where
  unselected d h := by
    have hsame := same_output b port v d
    rwa [offer, if_neg (Bool.eq_false_iff.mp h)] at hsame
  alone d h := by
    refine ⟨fun e => (selects_alone b port d e).trans ⟨And.right, ?_⟩, register_alone d port,
      driveRegister_alone d port⟩
    rintro rfl
    exact ⟨h, rfl⟩
  selected d h := by
    have halone : b.selects (d.alone port) d = true := (selects_alone b port d d).mpr ⟨h, rfl⟩
    have hone := same_output b (d.alone port) v d
    have hall := same_output b port v d
    rw [offer, if_pos halone, take_alone] at hone
    rw [offer, if_pos h] at hall
    exact hone.symm.trans hall
  map := map_output b port v
  fixed := by
    rw [output_eq]
    exact fixed_foldl port v Device.all b

theorem selects_drives (b : Board) (port : UInt16) : b.selects port .drives = b.selectsDrives port := by
  simp [selects, Device.lines, selectsDrives, Bool.and_assoc]

theorem driveRegister_eq_data {port : UInt16} (h : driveRegister port = .data) :
    low port 8 = false ∧ low port 0 = false := by
  rw [driveRegister] at h
  cases h8 : low port 8 <;> cases h0 : low port 0 <;> simp [h8, h0] at h ⊢

theorem readFrom_input (b : Board) (port : UInt16) : b.ReadFrom port (b.input port).1 (b.input port).2 where
  kept h := by
    rw [selects_drives] at h
    simp only [input]
    split
    · next hdrives =>
      split
      · rfl
      · rfl
      · next hdata => exact absurd ⟨hdrives, driveRegister_eq_data hdata⟩ h
    · rfl
  controller := by
    simp only [input]
    split
    · split <;> exact ⟨_, rfl⟩
    · exact ⟨_, rfl⟩
  floating h := by
    rw [readable, selects_drives, Bool.or_eq_false_iff, Bool.or_eq_false_iff] at h
    obtain ⟨⟨hcrtc, hppi⟩, hdrives⟩ := h
    simp only [input, hcrtc, hppi, Bool.false_eq_true, if_false]
    split
    · next hselected =>
      have hmotor : driveRegister port = .motor := by
        rw [hselected, Bool.true_and, Bool.not_eq_false'] at hdrives
        rw [driveRegister, if_pos hdrives]
      rw [hmotor]
    · rfl

/-- **An access to a port reaches the devices that it selects, and no other.** A device is selected while its
address lines are low. On a write, those that are not selected stay as they are, and each one that is takes the
byte as if it alone had been addressed; the memory map changes with the gate array and the selected expansion
only, and what is in memory, the keys that are pressed and the lines from outside never change. A read changes
nothing, except for the disk controller if that is asked for data, and it gives ones if there is nothing to be
read. -/
theorem ports_isolate_devices (b : Board) (port : UInt16) :
    (∀ v, b.Written port v (b.output port v)) ∧ b.ReadFrom port (b.input port).1 (b.input port).2 :=
  ⟨b.written_output port, b.readFrom_input port⟩

end Board

end AmstradCpc
