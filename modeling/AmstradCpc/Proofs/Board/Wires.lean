/-
What the parallel interface drives, and what the board takes it to drive. The interface has its
ports and their directions; the board has a copy of the wires, from which it selects a line of
keys, runs the cassette and asks the sound chip for something. `Carries` says that the copy of
the second half is that of a byte, and `Board.wired_iff` when this is the byte that the interface
drives.
-/
import Mathlib.Data.FinEnum
import AmstradCpc.Proofs.Board.Reached
import AmstradCpc.Proofs.History
import AmstradCpc.Proofs.Snapshot.RoundTrip

namespace AmstradCpc

/-! ## Which accesses go to the interface -/

namespace Board

variable (b : Board) (port : UInt16) (v : UInt8)

@[simp] theorem ppi_writeGateArray : (b.writeGateArray v).ppi = b.ppi := by
  simp only [writeGateArray]
  split <;> rfl

@[simp] theorem peripherals_writeGateArray : (b.writeGateArray v).peripherals = b.peripherals := by
  simp only [writeGateArray]
  split <;> rfl

@[simp] theorem ppi_writeCrtc (register : UInt8) : (b.writeCrtc register v).ppi = b.ppi := by
  simp only [writeCrtc]
  split <;> rfl

@[simp] theorem peripherals_writeCrtc (register : UInt8) :
    (b.writeCrtc register v).peripherals = b.peripherals := by
  simp only [writeCrtc]
  split <;> rfl

@[simp] theorem ppi_writeDrives (register : DriveRegister) : (b.writeDrives register v).ppi = b.ppi := by
  cases register <;> rfl

@[simp] theorem peripherals_writeDrives (register : DriveRegister) :
    (b.writeDrives register v).peripherals = b.peripherals := by
  cases register <;> rfl

theorem ppi_output : (b.output port v).ppi =
    if low port 11 then (b.ppi.write (register port) v).1 else b.ppi := by
  simp only [output, writePpi, selectRom, remap, apply_ite Board.ppi, ppi_writeDrives, ppi_writeCrtc,
    ppi_writeGateArray, ite_self]

theorem peripherals_output : (b.output port v).peripherals =
    if low port 11 then b.peripherals.driveAll (b.ppi.write (register port) v).2 else b.peripherals := by
  simp only [output, writePpi, selectRom, remap, apply_ite Board.ppi, apply_ite Board.peripherals, ppi_writeCrtc,
    ppi_writeGateArray, peripherals_writeDrives, peripherals_writeCrtc, peripherals_writeGateArray, ite_self]

end Board

/-! ## What a write to the interface is -/

namespace Ppi

variable (p : Ppi)

/-- The registers through which port C is written: its own, and the control register. -/
def drivesC (register : UInt8) : Bool := 2 ≤ register &&& 3

/-- Setting the directions makes all ports zero, and puts that on those that are outputs now. -/
def modeSet (control : UInt8) : Ppi × List (Port × UInt8) :=
  let p : Ppi := { control }
  (p, (if p.portAIsInput then [] else [(.a, 0)]) ++ (if p.portBIsInput then [] else [(.b, 0)]) ++ [(.c, 0)])

theorem write_of_not_drivesC {register : UInt8} (h : drivesC register = false) (v : UInt8) :
    p.write register v = ({ p with portA := v }, if p.portAIsInput then [] else [(.a, v)]) ∨
      p.write register v = ({ p with portB := v }, if p.portBIsInput then [] else [(.b, v)]) := by
  have hregister : ∀ r : UInt8, drivesC r = false → r &&& 3 = 0 ∨ r &&& 3 = 1 := by decide +kernel
  rcases hregister register h with h | h
  · exact .inl (by simp only [write, h])
  · exact .inr (by simp only [write, h])

/-- Setting a single bit is writing the port as it is with that bit. -/
theorem write_of_drivesC {register : UInt8} (h : drivesC register = true) (v : UInt8) :
    (∃ c, p.write register v = ({ p with portC := c }, [(.c, c &&& p.portCOutputs)])) ∨
      p.write register v = modeSet v := by
  have hregister : ∀ r : UInt8, drivesC r = true → r &&& 3 = 2 ∨ r &&& 3 = 3 := by decide +kernel
  rcases hregister register h with h | h
  · exact .inl ⟨v, by simp only [write, h]; rfl⟩
  · have hcontrol : p.write register v = p.writeControl v := by simp only [write, h]; rfl
    simp only [hcontrol, writeControl]
    split
    · exact .inr rfl
    · exact .inl ⟨_, rfl⟩

theorem drivenC_modeSet (control : UInt8) : (modeSet control).1.drivenC = 0 := UInt8.zero_and

end Ppi

/-! ## Wires -/

namespace Peripherals

/-- The sound chip is asked for something, and nothing else comes of it. -/
theorem drivePsg_eq (p : Peripherals) : p.drivePsg = { p with psg := p.drivePsg.psg } := by
  unfold drivePsg
  split <;> rfl

/-- The wires of port C are as in the byte: a line of keys, the two lines of the cassette, and
what is asked of the sound chip. -/
structure Carries (p : Peripherals) (c : UInt8) : Prop where
  line : p.keyboard.line = c &&& 0x0F
  tapeMotor : p.tapeMotor = bitOf c 4
  tapeWrite : p.tapeWrite = bitOf c 5
  psgFunction : p.psgFunction = .ofBits (c >>> 6)

/-- The bits that ask this of the sound chip. -/
def requestBits : PsgFunction → UInt8
  | .inactive => 0x00
  | .read => 0x40
  | .write => 0x80
  | .select => 0xC0

variable {p : Peripherals} {c c' : UInt8}

/-- There is a wire for every bit. -/
theorem Carries.unique (h : p.Carries c) (h' : p.Carries c') : c = c' := by
  have hjoin : ∀ c : UInt8, c = c &&& (0x0F : UInt8) ||| bitIf (bitOf c 4) 4 ||| bitIf (bitOf c 5) 5 |||
      requestBits (.ofBits (c >>> 6)) := by decide +kernel
  rw [hjoin c, hjoin c', ← h.line, ← h'.line, ← h.tapeMotor, ← h'.tapeMotor, ← h.tapeWrite,
    ← h'.tapeWrite, ← h.psgFunction, ← h'.psgFunction]

theorem carries_drive_c (p : Peripherals) (c : UInt8) : (p.drive .c c).Carries c := by
  simp only [drive]
  rw [drivePsg_eq]
  exact ⟨rfl, rfl, rfl, rfl⟩

theorem carries_drive_a_iff {v : UInt8} : (p.drive .a v).Carries c ↔ p.Carries c := by
  simp only [drive]
  rw [drivePsg_eq]
  exact ⟨fun h => ⟨h.line, h.tapeMotor, h.tapeWrite, h.psgFunction⟩,
    fun h => ⟨h.line, h.tapeMotor, h.tapeWrite, h.psgFunction⟩⟩

theorem psgData_drive_a (p : Peripherals) (v : UInt8) : (p.drive .a v).psgData = v := by
  simp only [drive]
  rw [drivePsg_eq]

theorem psgData_drive_c (p : Peripherals) (v : UInt8) : (p.drive .c v).psgData = p.psgData := by
  simp only [drive]
  rw [drivePsg_eq]

@[simp] theorem driveAll_cons (p : Peripherals) (write : Ppi.Port × UInt8) (writes : List (Ppi.Port × UInt8)) :
    p.driveAll (write :: writes) = (p.drive write.1 write.2).driveAll writes := rfl

end Peripherals

namespace Board

variable {b : Board} {register v : UInt8}

/-- The wires of port C are as the interface drives them. -/
def WiredC (b : Board) : Prop := b.peripherals.Carries b.ppi.drivenC

/-- The wires of port A are as the interface drives them, if it does. -/
def WiredA (b : Board) : Prop := b.ppi.portAIsInput = false → b.peripherals.psgData = b.ppi.portA

theorem wiredC_writePpi_of_drivesC (h : Ppi.drivesC register = true) : (b.writePpi register v).WiredC := by
  rcases b.ppi.write_of_drivesC h v with ⟨c, hwrite⟩ | hwrite
  · simp only [WiredC, writePpi, hwrite]
    exact Peripherals.carries_drive_c ..
  · simp only [WiredC, writePpi, hwrite, Ppi.drivenC_modeSet]
    simp only [Ppi.modeSet, Peripherals.driveAll, List.foldl_append, List.foldl_cons, List.foldl_nil]
    exact Peripherals.carries_drive_c ..

theorem wiredC_writePpi_of_not_drivesC (h : Ppi.drivesC register = false) :
    (b.writePpi register v).WiredC ↔ b.WiredC := by
  rcases b.ppi.write_of_not_drivesC h v with hwrite | hwrite <;>
    simp only [WiredC, writePpi, hwrite, Ppi.drivenC, Ppi.portCOutputs]
  · cases b.ppi.portAIsInput
    · exact Peripherals.carries_drive_a_iff
    · exact Iff.rfl
  · cases b.ppi.portBIsInput <;> exact Iff.rfl

theorem WiredA.writePpi (h : b.WiredA) (register v : UInt8) : (b.writePpi register v).WiredA := by
  intro houtput
  cases hregister : Ppi.drivesC register with
  | false =>
    rcases b.ppi.write_of_not_drivesC hregister v with hwrite | hwrite
    · simp only [Board.writePpi, hwrite] at houtput ⊢
      have ha : b.ppi.portAIsInput = false := houtput
      simp [ha, Peripherals.driveAll, Peripherals.psgData_drive_a]
    · simp only [Board.writePpi, hwrite] at houtput ⊢
      cases b.ppi.portBIsInput <;> exact h houtput
  | true =>
    rcases b.ppi.write_of_drivesC hregister v with ⟨c, hwrite⟩ | hwrite
    · simp only [Board.writePpi, hwrite] at houtput ⊢
      exact (Peripherals.psgData_drive_c _ _).trans (h houtput)
    · simp only [Board.writePpi, hwrite, Ppi.modeSet] at houtput ⊢
      -- Port B drives none of the wires.
      have hb (q : Peripherals) : q.drive .b 0 = q := rfl
      cases Ppi.portBIsInput { control := v } <;>
        simp [houtput, hb, Peripherals.driveAll, Peripherals.psgData_drive_a, Peripherals.psgData_drive_c]

/-- At first, and after a reset, every port is an input and every wire is zero. -/
theorem wiredC_of_idle (hppi : b.ppi = {}) (hline : b.peripherals.keyboard.line = 0)
    (hmotor : b.peripherals.tapeMotor = false) (hwrite : b.peripherals.tapeWrite = false)
    (hfunction : b.peripherals.psgFunction = .inactive) : b.WiredC := by
  have hdriven : b.ppi.drivenC = 0 := by
    rw [hppi]
    decide
  rw [WiredC, hdriven]
  exact ⟨hline, hmotor, hwrite, hfunction⟩

theorem wiredC_initial (memory : Memory) (signals : Signals) (hasDisc : Bool) :
    (Board.initial memory signals hasDisc).WiredC := wiredC_of_idle rfl rfl rfl rfl rfl

theorem wiredC_reset (b : Board) : b.reset.WiredC := wiredC_of_idle rfl rfl rfl rfl rfl

theorem wiredA_of_control {b : Board} (h : b.ppi.control = 0x9B) : b.WiredA := by
  intro houtput
  rw [Ppi.portAIsInput, h] at houtput
  exact absurd houtput (by decide)

end Board

/-! ## Histories of a board -/

/-- What happens to a board: a bus cycle, a reset, or a snapshot for the machine it is part of. -/
inductive BoardEvent where
  | cycle (cycle : Cycle)
  | reset
  | snapshot (data : ByteArray)

namespace BoardEvent

/-- The machine after an event on its board. -/
def apply (m : Machine) : BoardEvent → Machine
  | .cycle c => { m with board := (c.run (⟨m.board, #[]⟩ : Bench)).2.board }
  | .reset => { m with board := m.board.reset }
  | .snapshot data => (Snapshot.loadOrReset data m).2

/-- A snapshot is taken that has ones on port C at bits which are inputs. -/
def FillsInputs (m : Machine) : BoardEvent → Prop
  | .snapshot data => Snapshot.Acceptable data m.board.memory.kilobytes ∧
      (Snapshot.ppiOf data).drivenC ≠ (Snapshot.ppiOf data).portC
  | .cycle _ => False
  | .reset => False

/-- Port C is put on its wires anew: by a write to it or to the control register, by a reset, or
by a snapshot. -/
def SetsC : BoardEvent → Prop
  | .cycle (.output port _) => Board.low port 11 = true ∧ Ppi.drivesC (Board.register port) = true
  | .cycle _ => False
  | .reset => True
  | .snapshot _ => True

end BoardEvent

namespace Board

theorem wiredC_loaded_iff (data : ByteArray) (m : Machine) :
    (Snapshot.loaded data m).board.WiredC ↔ (Snapshot.ppiOf data).drivenC = (Snapshot.ppiOf data).portC := by
  have hcarries : (Snapshot.loaded data m).board.peripherals.Carries (Snapshot.ppiOf data).portC := by
    rw [Snapshot.peripherals_loaded]
    exact ⟨rfl, rfl, rfl, rfl⟩
  rw [WiredC, Snapshot.ppi_loaded]
  exact ⟨fun h => h.unique hcarries, fun h => h ▸ hcarries⟩

theorem wiredA_loaded (data : ByteArray) (m : Machine) : (Snapshot.loaded data m).board.WiredA := by
  intro _
  rw [Snapshot.peripherals_loaded, Snapshot.ppi_loaded]
  rfl

theorem ppi_input (b : Board) (port : UInt16) : (b.input port).2.ppi = b.ppi := by
  simp only [input]
  split
  · split <;> rfl
  · rfl

theorem peripherals_input (b : Board) (port : UInt16) : (b.input port).2.peripherals = b.peripherals := by
  simp only [input]
  split
  · split <;> rfl
  · rfl

theorem wiredC_output_iff (b : Board) (port : UInt16) (v : UInt8) :
    (b.output port v).WiredC ↔
      (low port 11 = true ∧ Ppi.drivesC (register port) = true) ∨ b.WiredC := by
  simp only [WiredC, ppi_output, peripherals_output]
  cases hlow : low port 11 with
  | false => simp
  | true =>
    cases hregister : Ppi.drivesC (register port) with
    | true => exact iff_of_true (wiredC_writePpi_of_drivesC hregister) (.inl ⟨rfl, rfl⟩)
    | false =>
      have hkept : (b.writePpi (register port) v).WiredC ↔ b.WiredC := wiredC_writePpi_of_not_drivesC hregister
      simp only [WiredC, writePpi] at hkept
      simp [hkept]

theorem WiredA.output {b : Board} (h : b.WiredA) (port : UInt16) (v : UInt8) : (b.output port v).WiredA := by
  simp only [WiredA, ppi_output, peripherals_output]
  cases low port 11 with
  | false => exact h
  | true => exact h.writePpi (register port) v

/-- One event, for the wires of port C. -/
theorem wiredC_apply_iff (m : Machine) (event : BoardEvent) :
    (event.apply m).board.WiredC ↔ ¬event.FillsInputs m ∧ (event.SetsC ∨ m.board.WiredC) := by
  cases event with
  | reset => exact iff_of_true (wiredC_reset m.board) ⟨id, .inl trivial⟩
  | snapshot data =>
    by_cases h : Snapshot.Acceptable data m.board.memory.kilobytes
    · simp [BoardEvent.apply, Snapshot.loadOrReset_of_acceptable h, BoardEvent.FillsInputs,
        BoardEvent.SetsC, h, wiredC_loaded_iff]
    · obtain ⟨e, hload⟩ := Snapshot.loadOrReset_of_not_acceptable h
      have hreset : m.reset.board.WiredC := wiredC_reset m.board
      simp [BoardEvent.apply, hload, BoardEvent.FillsInputs, BoardEvent.SetsC, h, hreset]
  | cycle c =>
    rw [BoardEvent.FillsInputs, not_false_iff, true_and]
    cases c with
    | output port v => exact wiredC_output_iff m.board port v
    | input port =>
      show ((m.board.input port).2).WiredC ↔ False ∨ m.board.WiredC
      rw [WiredC, ppi_input, peripherals_input, false_or]
      exact Iff.rfl
    | fetch | read | write | acknowledge => exact ⟨.inr, fun h => h.resolve_left id⟩

theorem WiredA.apply {m : Machine} (h : m.board.WiredA) (event : BoardEvent) :
    (event.apply m).board.WiredA := by
  cases event with
  | reset => exact wiredA_of_control rfl
  | snapshot data =>
    by_cases hdata : Snapshot.Acceptable data m.board.memory.kilobytes
    · rw [BoardEvent.apply, Snapshot.loadOrReset_of_acceptable hdata]
      exact wiredA_loaded data m
    · obtain ⟨e, hload⟩ := Snapshot.loadOrReset_of_not_acceptable hdata
      rw [BoardEvent.apply, hload]
      exact wiredA_of_control rfl
  | cycle c =>
    cases c with
    | output port v => exact h.output port v
    | input port =>
      show ((m.board.input port).2).WiredA
      rw [WiredA, ppi_input, peripherals_input]
      exact h
    | fetch | read | write | acknowledge => exact h

/-- **When the board sees what the parallel interface drives.** A board is put together, and after
that come bus cycles, resets and snapshots in any order. While port A is an output, its wires
have what was written to it. The wires of port C, which are a line of keys, the motor and the
output of the cassette, and what is asked of the sound chip, are as the interface drives them
exactly if no snapshot has been taken that has ones on port C where it has inputs, or if since
the last of these port C has been put on its wires by a write, a reset or another snapshot. -/
theorem wired_iff (m : Machine) (memory : Memory) (signals : Signals) (hasDisc : Bool)
    (events : List BoardEvent) :
    let first := { m with board := .initial memory signals hasDisc }
    let b := (events.foldl BoardEvent.apply first).board
    (b.ppi.portAIsInput = false → b.peripherals.psgData = b.ppi.portA) ∧
      ((b.peripherals.keyboard.line = (b.ppi.portC &&& b.ppi.portCOutputs) &&& 0x0F ∧
          b.peripherals.tapeMotor = bitOf (b.ppi.portC &&& b.ppi.portCOutputs) 4 ∧
          b.peripherals.tapeWrite = bitOf (b.ppi.portC &&& b.ppi.portCOutputs) 5 ∧
          b.peripherals.psgFunction = .ofBits ((b.ppi.portC &&& b.ppi.portCOutputs) >>> 6)) ↔
        ¬MarkedSince BoardEvent.apply (fun m event => event.FillsInputs m) (fun _ event => event.SetsC)
          first events) := by
  intro first b
  have hfirst : first.board.WiredA := wiredA_of_control rfl
  obtain ⟨ha, hc⟩ := holds_iff_not_markedSince (I := fun m => m.board.WiredA)
    (P := fun m => m.board.WiredC) (fun m event h => h.apply event)
    (fun m event _ => wiredC_apply_iff m event) hfirst (wiredC_initial memory signals hasDisc) events
  refine ⟨ha, Iff.trans ?_ hc⟩
  exact ⟨fun ⟨hline, hmotor, hwrite, hfunction⟩ => ⟨hline, hmotor, hwrite, hfunction⟩,
    fun h => ⟨h.line, h.tapeMotor, h.tapeWrite, h.psgFunction⟩⟩

/-- A machine that has just been switched on, after the lower half of port C has been left an input
and ones have been written to it. -/
def halfTurned : Machine :=
  [.cycle (.output 0xF700 0x83), .cycle (.output 0xF600 0x4F)].foldl BoardEvent.apply Snapshot.newMachine

/-- Its own snapshot makes the ones select a line of keys, and nothing drives these wires. -/
theorem halfTurned_not_wired :
    halfTurned.board.peripherals.keyboard.line =
      (halfTurned.board.ppi.portC &&& halfTurned.board.ppi.portCOutputs) &&& 0x0F ∧
    let b := (BoardEvent.apply halfTurned (.snapshot (Snapshot.save halfTurned))).board
    b.ppi = halfTurned.board.ppi ∧ b.peripherals.keyboard.line = 0x0F ∧
      b.peripherals.keyboard.line ≠ (b.ppi.portC &&& b.ppi.portCOutputs) &&& 0x0F := by
  have hload : BoardEvent.apply halfTurned (.snapshot (Snapshot.save halfTurned)) =
      Snapshot.restored halfTurned halfTurned := by
    rw [BoardEvent.apply, Snapshot.loadOrReset, Snapshot.load_save (by decide) rfl]
  refine ⟨by decide, ?_⟩
  rw [hload]
  exact ⟨rfl, by decide, by decide⟩

end Board

end AmstradCpc
