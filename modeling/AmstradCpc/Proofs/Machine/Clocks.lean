/-
Which events clock which chip. A program can write the registers of a chip, but it cannot make its
time go by: the counters of the display controller, the generators of the sound chip and the ticks
of the disk controller go on at one kind of event each (`clocked_apply`).
-/
import AmstradCpc.Proofs.Machine.Beam
import AmstradCpc.Proofs.Machine.Sync

namespace AmstradCpc

/-- The chips that have a clock of their own. -/
inductive Chip where
  | crtc
  | psg
  | fdc
  deriving DecidableEq

/-- What time does to the display controller: all but what programs write. -/
def Crtc.counting (c : Crtc) : Crtc := { c with registers := Crtc.initialRegisters, address := 0 }

/-- What time does to the sound chip: all but what programs write. A write can also start the
envelope again. -/
def Psg.sounding (p : Psg) : Psg := { p with registers := .replicate 16 0, selected := 0, envelope := {} }

/-! ## The disk controller -/

namespace Fdc

theorem ticks_modifyDrive (f : Fdc) (unit : Nat) (change : Drive → Drive) :
    (f.modifyDrive unit change).ticks = f.ticks := by
  rw [modifyDrive_eq]

theorem ticks_run (f : Fdc) (request : Request) : (f.run request).ticks = f.ticks := by
  cases request <;>
    simp only [run, senseDrive, seek, senseInterrupt, readSectors, readTrack, readId, writeSectors, beginWrite,
      formatTrack, commitFormat, startRead, enterResult, modifyDisk, setCylinder, ticks_modifyDrive] <;>
    repeat' split
  all_goals rfl

theorem ticks_write (f : Fdc) (v : UInt8) : (f.write v).ticks = f.ticks := by
  simp only [write, receiveCommand, commitSector, commitFormat, beginWrite, enterResult, modifyDisk]
  repeat' split
  all_goals simp only [ticks_run, ticks_modifyDrive]

theorem ticks_read (f : Fdc) : f.read.2.ticks = f.ticks := by
  unfold read
  split
  · dsimp only
    split <;> rfl
  all_goals rfl

end Fdc

/-! ## Cycles of the processor -/

theorem Crtc.counting_poke (c : Crtc) (i : Nat) (v : UInt8) : (c.poke i v).counting = c.counting := by
  rw [poke_eq]
  rfl

theorem Crtc.counting_write (c : Crtc) (v : UInt8) : (c.write v).counting = c.counting := by
  unfold write
  split
  · split
    · exact counting_poke ..
    · rfl
  · rfl

theorem Psg.sounding_poke (p : Psg) (i : Nat) (v : UInt8) : (p.poke i v).sounding = p.sounding := by
  rw [poke_eq]
  rfl

theorem Psg.sounding_write (p : Psg) (v : UInt8) : (p.write v).1.sounding = p.sounding := by
  simp only [write]
  split
  · exact sounding_poke ..
  all_goals exact sounding_poke ..

theorem Peripherals.sounding_drivePsg (p : Peripherals) : p.drivePsg.psg.sounding = p.psg.sounding := by
  unfold drivePsg
  split
  · exact Psg.sounding_write ..
  all_goals rfl

theorem Peripherals.sounding_driveAll (p : Peripherals) (writes : List (Ppi.Port × UInt8)) :
    (p.driveAll writes).psg.sounding = p.psg.sounding := by
  induction writes generalizing p with
  | nil => rfl
  | cons write writes ih =>
    obtain ⟨port, v⟩ := write
    rw [driveAll_cons, ih]
    cases port with
    | b => rfl
    | a | c => exact sounding_drivePsg _

namespace Board

/-- Time goes on in some of the chips, and not in the others. -/
structure Clocked (chips : Chip → Bool) (b b' : Board) : Prop where
  crtc : b'.crtc.counting = (if chips .crtc then b.crtc.clock else b.crtc).counting
  psg : b'.peripherals.psg.sounding =
    (if chips .psg then b.peripherals.psg.clock else b.peripherals.psg).sounding
  fdc : b'.drives.controller.ticks =
    (if chips .fdc then b.drives.controller.clock else b.drives.controller).ticks

/-- No chip is clocked. -/
def Rests (b b' : Board) : Prop := Clocked (fun _ => false) b b'

theorem Rests.refl (b : Board) : b.Rests b := ⟨rfl, rfl, rfl⟩

theorem Rests.trans {b b' b'' : Board} (h : b.Rests b') (h' : b'.Rests b'') : b.Rests b'' :=
  ⟨h'.crtc.trans h.crtc, h'.psg.trans h.psg, h'.fdc.trans h.fdc⟩

theorem counting_output (b : Board) (port : UInt16) (v : UInt8) :
    (b.output port v).crtc.counting = b.crtc.counting := by
  have hwrite (b : Board) : (b.writeCrtc (register port) v).crtc.counting = b.crtc.counting := by
    simp only [writeCrtc]
    split
    · rfl
    · exact Crtc.counting_write ..
    · rfl
  rw [crtc_output]
  split
  · rw [hwrite]
    split
    · rw [crtc_writeGateArray]
    · rfl
  · rfl

theorem drives_writeGateArray (b : Board) (v : UInt8) : (b.writeGateArray v).drives = b.drives := by
  simp only [writeGateArray]
  split <;> rfl

theorem drives_writeCrtc (b : Board) (register v : UInt8) : (b.writeCrtc register v).drives = b.drives := by
  simp only [writeCrtc]
  split <;> rfl

theorem ticks_writeDrives (b : Board) (register : DriveRegister) (v : UInt8) :
    (b.writeDrives register v).drives.controller.ticks = b.drives.controller.ticks := by
  cases register with
  | motor | status => rfl
  | data => exact Fdc.ticks_write ..

theorem ticks_output (b : Board) (port : UInt16) (v : UInt8) :
    (b.output port v).drives.controller.ticks = b.drives.controller.ticks := by
  simp only [output, writePpi, selectRom, remap, apply_ite Board.drives, apply_ite Drives.controller,
    apply_ite Fdc.ticks, ticks_writeDrives, drives_writeGateArray, drives_writeCrtc, ite_self]

theorem rests_output (b : Board) (port : UInt16) (v : UInt8) : b.Rests (b.output port v) where
  crtc := counting_output b port v
  psg := by
    rw [peripherals_output]
    split
    · exact Peripherals.sounding_driveAll ..
    · rfl
  fdc := ticks_output b port v

theorem rests_input (b : Board) (port : UInt16) : b.Rests (b.input port).2 := by
  simp only [input]
  split
  · split
    · exact .refl b
    · exact .refl b
    · exact ⟨rfl, rfl, Fdc.ticks_read _⟩
  · exact .refl b

theorem rests_runAll (bench : Bench) (cycles : List Cycle) :
    bench.board.Rests (Cycle.runAll bench cycles).board := by
  induction cycles generalizing bench with
  | nil => exact .refl _
  | cons cycle cycles ih =>
    refine Rests.trans ?_ (ih _)
    cases cycle with
    | fetch | read | write | acknowledge => exact ⟨rfl, rfl, rfl⟩
    | input port => exact rests_input bench.board port
    | output port v => exact rests_output bench.board port v

end Board

/-! ## Events -/

namespace MachineEvent

/-- What an event clocks. -/
def clocks : MachineEvent → Chip → Bool
  | beam => (· == .crtc)
  | sound => (· == .psg)
  | frameEnds => (· == .fdc)
  | _ => fun _ => false

/-- **An event clocks the chip that it is the clock of, and no other.** -/
theorem clocked_apply (s : Machine × Journal) {event : MachineEvent} (h : event.IsPart) :
    s.1.board.Clocked event.clocks (event.apply s).1.board := by
  cases event with
  | beam =>
    show s.1.board.Clocked _ s.1.clockBeam.board
    rw [Machine.clockBeam_eq]
    exact ⟨rfl, rfl, rfl⟩
  | instruction =>
    obtain ⟨cycles, hcycles⟩ := s.1.cpu.step_onlyCycles (⟨s.1.board, s.2⟩ : Bench)
    have hrests := Board.rests_runAll ⟨s.1.board, s.2⟩ cycles
    rwa [← hcycles] at hrests
  | frameBegins | lineBegins | grant | sound | lineEnds | frameEnds => exact ⟨rfl, rfl, rfl⟩
  | key | releaseKeys | reset | snapshot => exact h.elim

end MachineEvent

end AmstradCpc
