/-
What a clock of the display controller does to the rest of the machine. It matters only in two
places: where the vertical sync begins, and where the horizontal sync ends. `clockBeam_eq` says
what the machine is afterwards, one field at a time.
-/
import AmstradCpc.Proofs.Machine.Events
import AmstradCpc.Proofs.Snapshot.MemoryMap

namespace AmstradCpc

namespace Crtc

/-- The next clock begins the vertical sync. -/
def vsyncRises (c : Crtc) : Bool := !c.vsync && c.clock.vsync

/-- The next clock ends the horizontal sync. -/
def hsyncFalls (c : Crtc) : Bool := c.hsync && !c.clock.hsync

theorem vsyncRises_eq (c : Crtc) : c.vsyncRises = (Edge.between c.vsync c.clock.vsync == some .rising) := by
  unfold vsyncRises
  cases c.vsync <;> cases c.clock.vsync <;> rfl

theorem hsyncFalls_eq (c : Crtc) : c.hsyncFalls = (Edge.between c.hsync c.clock.hsync == some .falling) := by
  unfold hsyncFalls
  cases c.hsync <;> cases c.clock.hsync <;> rfl

end Crtc

namespace Machine

/-- The gate array when the end of the line is passed on to it. -/
def beamGateArray (m : Machine) : GateArray :=
  if m.board.crtc.vsyncRises then m.board.gateArray.vsyncBegins else m.board.gateArray

/-- The clock ends a line, and the gate array interrupts. -/
def lineInterrupts (m : Machine) : Bool := m.board.crtc.hsyncFalls && m.beamGateArray.hsyncEnds.2

theorem clockBeam_eq (m : Machine) : m.clockBeam =
    { m with
      cpu := if m.lineInterrupts then m.cpu.raiseInt else m.cpu
      board := { m.board with
        crtc := m.board.crtc.clock
        gateArray := if m.board.crtc.hsyncFalls then m.beamGateArray.hsyncEnds.1 else m.beamGateArray
        peripherals := { m.board.peripherals with signals := m.clockBeam.board.peripherals.signals } }
      frame :=
        let frame := if m.board.crtc.vsyncRises then m.frame.markVsync else m.frame
        if m.board.crtc.hsyncFalls then frame.latchColours m.beamGateArray.hsyncEnds.1 else frame } := by
  simp only [clockBeam, lineInterrupts, beamGateArray, Crtc.vsyncRises_eq, Crtc.hsyncFalls_eq]
  rcases Crtc.Edge.between m.board.crtc.vsync m.board.crtc.clock.vsync with _ | _ | _ <;>
    rcases Crtc.Edge.between m.board.crtc.hsync m.board.crtc.clock.hsync with _ | _ | _ <;> rfl

/-! ## The place in the frame -/

/-- The frame is as long as it was, and on the same line. -/
structure SamePlace (m m' : Machine) : Prop where
  lines : m'.frame.lines = m.frame.lines
  index : m'.frame.index = m.frame.index
  frameCount : m'.frameCount = m.frameCount

theorem SamePlace.refl (m : Machine) : SamePlace m m := ⟨rfl, rfl, rfl⟩

theorem SamePlace.trans {m m' m'' : Machine} (h : SamePlace m m') (h' : SamePlace m' m'') : SamePlace m m'' :=
  ⟨h'.lines.trans h.lines, h'.index.trans h.index, h'.frameCount.trans h.frameCount⟩

theorem samePlace_clockBeam (m : Machine) : SamePlace m m.clockBeam := by
  rw [clockBeam_eq]
  refine ⟨?_, ?_, rfl⟩ <;> dsimp only <;> split <;> split <;> rfl

/-- The processor and the sound chip leave the frame alone. -/
theorem frame_clockChar (m : Machine) (journal : Journal) :
    (m.clockChar journal).1.frame = m.clockBeam.frame := rfl

theorem samePlace_clockChar (m : Machine) (journal : Journal) : SamePlace m (m.clockChar journal).1 :=
  (samePlace_clockBeam m).trans ⟨rfl, rfl, rfl⟩

theorem samePlace_clockChars (n : Nat) (m : Machine) (journal : Journal) :
    SamePlace m (clockChars n m journal).1 := by
  induction n generalizing m journal with
  | zero => exact .refl m
  | succ n ih => exact (samePlace_clockChar m journal).trans (ih _ _)

/-- A line goes on to the next one. -/
theorem place_clockLine (m : Machine) (journal : Journal) :
    (m.clockLine journal).1.frame.lines = m.frame.lines ∧
      (m.clockLine journal).1.frame.index = m.frame.index + 1 ∧
      (m.clockLine journal).1.frameCount = m.frameCount := by
  have h := samePlace_clockChars charsPerLine { m with frame := m.frame.beginLine m.board.crtc } journal
  rcases hafter : clockChars charsPerLine { m with frame := m.frame.beginLine m.board.crtc } journal with
    ⟨m', journal'⟩
  rw [hafter] at h
  simp only [clockLine, hafter]
  exact ⟨h.lines, congrArg (· + 1) h.index, h.frameCount⟩

theorem place_clockLines (n : Nat) (m : Machine) (journal : Journal) :
    (clockLines n m journal).1.frame.lines = m.frame.lines ∧
      (clockLines n m journal).1.frame.index = m.frame.index + n ∧
      (clockLines n m journal).1.frameCount = m.frameCount := by
  induction n generalizing m journal with
  | zero => exact ⟨rfl, rfl, rfl⟩
  | succ n ih =>
    have hline := place_clockLine m journal
    rcases hafter : m.clockLine journal with ⟨m', journal'⟩
    simp only [hafter] at hline
    obtain ⟨hlines, hindex, hcount⟩ := ih m' journal'
    simp only [clockLines, hafter]
    exact ⟨hlines.trans hline.1, by omega, hcount.trans hline.2.2⟩

theorem place_clockFrame (m : Machine) (journal : Journal) :
    (m.clockFrame journal).1.frame.lines = m.frame.lines ∧
      (m.clockFrame journal).1.frame.index = m.frame.lines ∧
      (m.clockFrame journal).1.frameCount = m.frameCount + 1 := by
  have h := place_clockLines m.frame.lines { m with frame := { m.frame with index := 0 } } journal
  rcases hafter : clockLines m.frame.lines { m with frame := { m.frame with index := 0 } } journal with
    ⟨m', journal'⟩
  rw [hafter] at h
  simp only [clockFrame, hafter]
  exact ⟨h.1, h.2.1.trans (Nat.zero_add _), congrArg (· + 1) h.2.2⟩

theorem lines_built {c : Config} {roms : Roms} {m : Machine} (h : Built c roms m) :
    m.frame.lines = 312 ∨ m.frame.lines = 262 := by
  obtain ⟨drives, rfl⟩ := h.onlyDrives
  show c.refresh.lines = 312 ∨ c.refresh.lines = 262
  cases c.refresh with
  | hz50 => exact .inl rfl
  | hz60 => exact .inr rfl

end Machine

namespace MachineEvent

/-- Whatever happens, the frame is as long as it was. -/
theorem lines_apply (s : Machine × Journal) (event : MachineEvent) :
    (event.apply s).1.frame.lines = s.1.frame.lines := by
  cases event with
  | beam => exact (Machine.samePlace_clockBeam s.1).lines
  | snapshot data =>
    by_cases hacceptable : Snapshot.Acceptable data s.1.board.memory.kilobytes
    · simp only [apply, Snapshot.loadOrReset_of_acceptable hacceptable, Snapshot.frame_loaded]
    · obtain ⟨e, hload⟩ := Snapshot.loadOrReset_of_not_acceptable hacceptable
      simp only [apply, hload]
      rfl
  | _ => rfl

theorem lines_applyAll (s : Machine × Journal) (events : List MachineEvent) :
    (applyAll s events).1.frame.lines = s.1.frame.lines := by
  induction events generalizing s with
  | nil => rfl
  | cons event events ih => exact (ih _).trans (lines_apply s event)

end MachineEvent

end AmstradCpc
