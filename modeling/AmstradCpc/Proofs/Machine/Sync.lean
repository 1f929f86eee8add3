/-
What the board shows of the sync signals. The display controller raises and drops them, and the
board has a copy of each, which is brought up to date when an edge is passed on. A reset drops
the signals themselves without an edge. So the copy is wrong exactly from a reset in the middle
of a pulse to the next edge (`MachineEvent.sync_seen_iff`).
-/
import AmstradCpc.Proofs.Board.Wires
import AmstradCpc.Proofs.Crtc.Clock
import AmstradCpc.Proofs.Machine.Idle
import AmstradCpc.Proofs.Word

namespace AmstradCpc

/-- The signal as the board has it. -/
def Signals.sync (s : Signals) : Sync → Bool
  | .horizontal => s.hsync
  | .vertical => s.vsync

/-- The vertical signal is the lowest bit of the port with the single lines. -/
theorem bitOf_toByte (s : Signals) : bitOf s.toByte 0 = s.vsync := by
  have hshift : ∀ n < 8, 0 < n → ∀ v : UInt8, bitOf (v <<< n) 0 = false := by decide +kernel
  have hvsync : ∀ b : Bool, bitOf (bitIf b 0) 0 = b := by decide
  have hbit : (0 : UInt8) < 8 := by decide
  simp only [Signals.toByte, bitOf_or _ _ hbit, hvsync, hshift 7 (by decide) (by decide),
    hshift 6 (by decide) (by decide), hshift 5 (by decide) (by decide), hshift 4 (by decide) (by decide),
    hshift 1 (by decide) (by decide), Bool.false_or]

/-! ## What leaves the signals alone -/

/-- Both signals, and the copies of them, are as they were. -/
structure Board.KeepsSync (b b' : Board) : Prop where
  signals : b'.peripherals.signals = b.peripherals.signals
  sync : ∀ sync, b'.crtc.sync sync = b.crtc.sync sync

theorem Crtc.sync_poke (c : Crtc) (i : Nat) (v : UInt8) (sync : Sync) : (c.poke i v).sync sync = c.sync sync := by
  rw [poke_eq]
  cases sync <;> rfl

theorem Crtc.sync_write (c : Crtc) (v : UInt8) (sync : Sync) : (c.write v).sync sync = c.sync sync := by
  unfold write
  split
  · split
    · exact sync_poke ..
    · rfl
  · rfl

theorem Peripherals.signals_drive (p : Peripherals) (port : Ppi.Port) (v : UInt8) :
    (p.drive port v).signals = p.signals := by
  cases port with
  | b => rfl
  | a | c =>
    simp only [drive]
    rw [drivePsg_eq]

theorem Peripherals.signals_driveAll (p : Peripherals) (writes : List (Ppi.Port × UInt8)) :
    (p.driveAll writes).signals = p.signals := by
  induction writes generalizing p with
  | nil => rfl
  | cons write writes ih => rw [driveAll_cons, ih, signals_drive]

namespace Board

theorem KeepsSync.refl (b : Board) : b.KeepsSync b := ⟨rfl, fun _ => rfl⟩

theorem KeepsSync.trans {b b' b'' : Board} (h : b.KeepsSync b') (h' : b'.KeepsSync b'') : b.KeepsSync b'' :=
  ⟨h'.signals.trans h.signals, fun sync => (h'.sync sync).trans (h.sync sync)⟩

theorem crtc_writeGateArray (b : Board) (v : UInt8) : (b.writeGateArray v).crtc = b.crtc := by
  simp only [writeGateArray]
  split <;> rfl

theorem crtc_writeDrives (b : Board) (register : DriveRegister) (v : UInt8) :
    (b.writeDrives register v).crtc = b.crtc := by
  cases register <;> rfl

theorem sync_writeCrtc (b : Board) (register v : UInt8) (sync : Sync) :
    (b.writeCrtc register v).crtc.sync sync = b.crtc.sync sync := by
  simp only [writeCrtc]
  split
  · cases sync <;> rfl
  · exact Crtc.sync_write ..
  · rfl

theorem crtc_output (b : Board) (port : UInt16) (v : UInt8) : (b.output port v).crtc =
    ((if low port 14 then
        (if low port 15 then b.writeGateArray v else b).writeCrtc (register port) v
      else b).crtc) := by
  simp only [output, writePpi, selectRom, remap, apply_ite Board.crtc, crtc_writeDrives,
    crtc_writeGateArray, ite_self]

theorem keepsSync_output (b : Board) (port : UInt16) (v : UInt8) : b.KeepsSync (b.output port v) where
  signals := by
    rw [peripherals_output]
    split
    · exact Peripherals.signals_driveAll ..
    · rfl
  sync sync := by
    rw [crtc_output]
    split
    · rw [sync_writeCrtc]
      split
      · rw [crtc_writeGateArray]
      · rfl
    · rfl

theorem keepsSync_run (bench : Bench) (cycle : Cycle) : bench.board.KeepsSync (cycle.run bench).2.board := by
  cases cycle with
  | fetch | read | write | acknowledge => exact ⟨rfl, fun _ => rfl⟩
  | output port v => exact keepsSync_output ..
  | input port =>
    show bench.board.KeepsSync (bench.board.input port).2
    simp only [input]
    split
    · split <;> exact ⟨rfl, fun _ => rfl⟩
    · exact ⟨rfl, fun _ => rfl⟩

theorem keepsSync_runAll (bench : Bench) (cycles : List Cycle) :
    bench.board.KeepsSync (Cycle.runAll bench cycles).board := by
  induction cycles generalizing bench with
  | nil => exact .refl _
  | cons cycle cycles ih => exact (keepsSync_run bench cycle).trans (ih _)

theorem keepsSync_loaded (data : ByteArray) (m : Machine) :
    m.board.KeepsSync (Snapshot.loaded data m).board where
  signals := by
    simp only [Snapshot.peripherals_loaded, Snapshot.loadPeripherals]
  sync sync := by
    rw [Snapshot.crtc_loaded, Snapshot.loadCrtc, Crtc.foldl_poke]
    cases sync <;> simp only [Crtc.sync, Crtc.select]

end Board

/-! ## The beam -/

namespace Machine

theorem signals_vsyncEdge (m : Machine) (edge : Crtc.Edge) : (m.vsyncEdge edge).board.peripherals.signals =
    { m.board.peripherals.signals with vsync := edge == .rising } := by
  cases edge <;> rfl

theorem signals_hsyncEdge (m : Machine) (edge : Crtc.Edge) : (m.hsyncEdge edge).board.peripherals.signals =
    { m.board.peripherals.signals with hsync := edge == .rising } := by
  cases edge <;> rfl

theorem between_eq (before after : Bool) : Crtc.Edge.between before after =
    if before = after then none else some (if after then .rising else .falling) := by
  cases before <;> cases after <;> rfl

theorem rising_iff (after : Bool) : ((if after then Crtc.Edge.rising else .falling) == .rising) = after := by
  cases after <;> rfl

/-- The copy of a signal changes at an edge and not otherwise. -/
theorem sync_clockBeam (m : Machine) (sync : Sync) :
    m.clockBeam.board.peripherals.signals.sync sync =
      if m.board.crtc.sync sync = m.board.crtc.clock.sync sync then m.board.peripherals.signals.sync sync
      else m.board.crtc.clock.sync sync := by
  have hcopies : m.clockBeam.board.peripherals.signals =
      { m.board.peripherals.signals with
        hsync := if m.board.crtc.hsync = m.board.crtc.clock.hsync then m.board.peripherals.signals.hsync
          else m.board.crtc.clock.hsync
        vsync := if m.board.crtc.vsync = m.board.crtc.clock.vsync then m.board.peripherals.signals.vsync
          else m.board.crtc.clock.vsync } := by
    simp only [clockBeam, between_eq]
    by_cases hv : m.board.crtc.vsync = m.board.crtc.clock.vsync <;>
      by_cases hh : m.board.crtc.hsync = m.board.crtc.clock.hsync <;>
        simp only [hv, hh, if_true, if_false, signals_vsyncEdge, signals_hsyncEdge, rising_iff]
  rw [hcopies]
  cases sync <;> rfl

end Machine

/-! ## Histories of a machine -/

namespace MachineEvent

/-- The chips are reset: on request, or because a snapshot is refused. -/
def Resets (s : Machine × Journal) : MachineEvent → Prop
  | reset => True
  | snapshot data => ¬Snapshot.Acceptable data s.1.board.memory.kilobytes
  | _ => False

/-- A reset in the middle of a pulse. -/
def CutsPulse (sync : Sync) (s : Machine × Journal) (event : MachineEvent) : Prop :=
  event.Resets s ∧ s.1.board.crtc.sync sync = true

/-- The controller raises or drops the signal. -/
def IsEdge (sync : Sync) (s : Machine × Journal) : MachineEvent → Prop
  | beam => s.1.board.crtc.sync sync ≠ s.1.board.crtc.clock.sync sync
  | _ => False

/-- What an event can do to the signals. -/
theorem apply_cases (s : Machine × Journal) (event : MachineEvent) :
    event = beam ∨
      event ≠ beam ∧ event.Resets s ∧ (apply s event).1.board = s.1.board.reset ∨
      event ≠ beam ∧ ¬event.Resets s ∧ s.1.board.KeepsSync (apply s event).1.board := by
  cases event with
  | beam => exact .inl rfl
  | reset => exact .inr (.inl ⟨by simp, trivial, rfl⟩)
  | snapshot data =>
    refine .inr ?_
    by_cases h : Snapshot.Acceptable data s.1.board.memory.kilobytes
    · refine .inr ⟨by simp, not_not_intro h, ?_⟩
      simp only [apply, Snapshot.loadOrReset_of_acceptable h]
      exact Board.keepsSync_loaded data s.1
    · obtain ⟨e, hload⟩ := Snapshot.loadOrReset_of_not_acceptable h
      refine .inl ⟨by simp, h, ?_⟩
      simp only [apply, hload]
      rfl
  | instruction =>
    obtain ⟨cycles, hcycles⟩ := s.1.cpu.step_onlyCycles (⟨s.1.board, s.2⟩ : Bench)
    refine .inr (.inr ⟨by simp, id, ?_⟩)
    simp only [apply, hcycles]
    exact Board.keepsSync_runAll ⟨s.1.board, s.2⟩ cycles
  | frameBegins | lineBegins | grant | sound | lineEnds | frameEnds | key | releaseKeys =>
    exact .inr (.inr ⟨by simp, id, rfl, fun _ => rfl⟩)

/-- The copy of a signal that is up is up. -/
def Follows (sync : Sync) (s : Machine × Journal) : Prop :=
  s.1.board.crtc.sync sync = true → s.1.board.peripherals.signals.sync sync = true

/-- The board has the signal as it is. -/
def Seen (sync : Sync) (s : Machine × Journal) : Prop :=
  s.1.board.peripherals.signals.sync sync = s.1.board.crtc.sync sync

theorem sync_reset (b : Board) (sync : Sync) : b.reset.crtc.sync sync = false := by cases sync <;> rfl

theorem Follows.apply {sync : Sync} {s : Machine × Journal} (h : Follows sync s) (event : MachineEvent) :
    Follows sync (apply s event) := by
  rcases apply_cases s event with rfl | ⟨-, -, hreset⟩ | ⟨-, -, hkeeps⟩
  · show s.1.clockBeam.board.crtc.sync sync = true → _
    rw [MachineEvent.apply, Machine.sync_clockBeam, Machine.crtc_clockBeam]
    intro hup
    split
    next hsame => exact h (hsame.trans hup)
    next => exact hup
  · simp [Follows, hreset, sync_reset]
  · rw [Follows, hkeeps.signals, hkeeps.sync]
    exact h

theorem Follows.applyAll {sync : Sync} {s : Machine × Journal} (h : Follows sync s)
    (events : List MachineEvent) : Follows sync (applyAll s events) := by
  induction events generalizing s with
  | nil => exact h
  | cons event events ih => exact ih (h.apply event)

theorem not_isEdge {sync : Sync} {s : Machine × Journal} {event : MachineEvent} (h : event ≠ beam) :
    ¬event.IsEdge sync s := by
  cases event <;> first
    | exact absurd rfl h
    | exact id

/-- One event. A reset drops the signal and leaves the copy, an edge sets the copy, and anything else
leaves both. -/
theorem seen_apply_iff {sync : Sync} {s : Machine × Journal} (h : Follows sync s) (event : MachineEvent) :
    Seen sync (apply s event) ↔ ¬event.CutsPulse sync s ∧ (event.IsEdge sync s ∨ Seen sync s) := by
  rcases apply_cases s event with rfl | ⟨hbeam, hresets, hreset⟩ | ⟨hbeam, hresets, hkeeps⟩
  · have hcut : ¬CutsPulse sync s beam := fun hcut => hcut.1
    rw [Seen, apply, Machine.sync_clockBeam, Machine.crtc_clockBeam]
    by_cases hsame : s.1.board.crtc.sync sync = s.1.board.crtc.clock.sync sync
    · simp [hcut, IsEdge, hsame, Seen]
    · simp [hcut, IsEdge, hsame]
  · rw [Seen, hreset, sync_reset]
    show s.1.board.peripherals.signals.sync sync = false ↔ _
    simp only [CutsPulse, hresets, true_and, not_isEdge hbeam, false_or, Seen]
    cases hup : s.1.board.crtc.sync sync with
    | false => simp
    | true => simp [h hup]
  · have hcut : ¬event.CutsPulse sync s := fun hcut => hresets hcut.1
    rw [Seen, hkeeps.signals, hkeeps.sync]
    simp [hcut, not_isEdge hbeam, Seen]

/-- **When the board shows the sync signals as they are.** A machine is switched on, and after that
frames run, keys go up and down, and there are resets and snapshots. A frame is a row of events
with the instructions of the processor among them. After every row of events, and so between
any two instructions, the board's copy of either signal is as the display controller puts it
out exactly if no reset, and no snapshot that is refused, has come in the middle of a pulse of
that signal, or if the controller has raised or dropped it since. The copy of the vertical signal
is what a program sees at its port. -/
theorem sync_seen_iff (c : Config) (roms : Roms) (journal : Journal) (events : List MachineEvent) :
    let first := (Machine.ofConfig c roms, journal)
    let m := (applyAll first events).1
    (∀ sync, m.board.peripherals.signals.sync sync = m.board.crtc.sync sync ↔
      ¬MarkedSince apply (fun s event => event.CutsPulse sync s) (fun s event => event.IsEdge sync s)
        first events) ∧
    bitOf (m.board.peripherals.level .b) 0 = m.board.peripherals.signals.sync .vertical ∧
    ∀ journal, ∃ lines : List (List Nat), lines.length = m.frame.lines ∧
      (∀ line ∈ lines, line.length = Machine.charsPerLine) ∧
      applyAll (m, journal) (frameEvents lines) = m.clockFrame journal := by
  intro first m
  refine ⟨fun sync => ?_, bitOf_toByte _, applyAll_frameEvents m⟩
  have hfirst : Follows sync first ∧ Seen sync first := by
    cases sync
    · exact ⟨nofun, rfl⟩
    · exact ⟨nofun, rfl⟩
  exact (holds_iff_not_markedSince (fun s event h => h.apply event) (fun s event h => seen_apply_iff h event)
    hfirst.1 hfirst.2 events).2

/-- In the middle of a pulse a reset leaves the copy up. -/
theorem Follows.reset {sync : Sync} {s : Machine × Journal} (h : Follows sync s)
    (hup : s.1.board.crtc.sync sync = true) :
    s.1.reset.board.crtc.sync sync = false ∧ s.1.reset.board.peripherals.signals.sync sync = true :=
  ⟨sync_reset _ _, h hup⟩

/-- A machine whose display controller a program has set to a single row of characters. -/
def rowMachine : Machine :=
  { Snapshot.newMachine with
    board := (Cycle.runAll (⟨Snapshot.newMachine.board, #[]⟩ : Bench)
      [.output 0xBC00 4, .output 0xBD00 0, .output 0xBC00 7, .output 0xBD00 0]).board }

theorem memory_newMachine : Snapshot.newMachine.board.memory = .initial 4 .zeroed .zeroed := rfl

theorem memory_rowMachine : rowMachine.board.memory = .initial 4 .zeroed .zeroed := by
  simp only [rowMachine, Cycle.runAll, List.foldl_cons, List.foldl_nil, Cycle.run, Bus.output,
    Board.memory_output, memory_newMachine]

theorem load_rowMachine : Snapshot.loadOrReset (Snapshot.save rowMachine) Snapshot.newMachine =
    (.ok (), Snapshot.restored rowMachine Snapshot.newMachine) := by
  have hword : rowMachine.board.memory.kilobytes < 0x10000 := by
    rw [memory_rowMachine]
    decide
  have hsize : Snapshot.newMachine.board.memory.ram.size = rowMachine.board.memory.ram.size := by
    rw [memory_rowMachine, memory_newMachine]
  rw [Snapshot.loadOrReset, Snapshot.load_save hword hsize]

theorem pulses_rowMachine : Pulses (Snapshot.restored rowMachine Snapshot.newMachine, (#[] : Journal)) := by
  refine ⟨⟨?_, rfl, rfl, rfl⟩, ?_⟩
  · show ({ Snapshot.newMachine.board.memory with ram := rowMachine.board.memory.ram } : Memory) = _
    rw [memory_rowMachine, memory_newMachine]
  · show (Snapshot.restored rowMachine Snapshot.newMachine).board.crtc.SingleRow
    rw [Snapshot.crtc_restored]
    exact ⟨by decide, by decide, rfl⟩

/-- A frame after the snapshot of it has been loaded, a reset comes in the middle of a pulse. -/
theorem rowMachine_not_seen :
    ∃ loaded, Snapshot.loadOrReset (Snapshot.save rowMachine) Snapshot.newMachine = (.ok (), loaded) ∧
      (loaded.clockFrame #[]).1.board.crtc.sync .vertical = true ∧
      (loaded.clockFrame #[]).1.reset.board.crtc.sync .vertical = false ∧
      (loaded.clockFrame #[]).1.reset.board.peripherals.signals.sync .vertical = true := by
  have hlines : 0 < (Snapshot.restored rowMachine Snapshot.newMachine).frame.lines := by
    show 0 < Snapshot.newMachine.frame.lines
    decide
  have hup := (Crtc.sync_vertical _).trans (pulses_rowMachine.clockFrame hlines)
  have hfirst : Follows .vertical (Snapshot.newMachine, (#[] : Journal)) := nofun
  have hloaded : Follows .vertical (Snapshot.restored rowMachine Snapshot.newMachine, (#[] : Journal)) := by
    have h := hfirst.apply (.snapshot (Snapshot.save rowMachine))
    rwa [Follows, MachineEvent.apply, load_rowMachine] at h
  obtain ⟨lines, -, -, hframe⟩ := applyAll_frameEvents (Snapshot.restored rowMachine Snapshot.newMachine) #[]
  have hfollows := hloaded.applyAll (frameEvents lines)
  rw [hframe] at hfollows
  exact ⟨_, load_rowMachine, hup, hfollows.reset hup⟩

end MachineEvent

end AmstradCpc
