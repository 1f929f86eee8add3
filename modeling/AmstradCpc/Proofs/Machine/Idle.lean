/-
A machine with nothing to do. Its processor runs through memory in which there is nothing, so that
the board is as it was after every instruction, and what happens in a frame is what the beam
does. If the picture is a single row of characters, with the vertical sync in it, the sync is up
from the first clock of the beam on (`MachineEvent.Pulses.clockFrame`).
-/
import AmstradCpc.Proofs.Machine.Events

namespace AmstradCpc

/-- The picture is a single row of characters, and the vertical sync begins in it. -/
structure Crtc.SingleRow (c : Crtc) : Prop where
  total : c.verticalTotal = 0
  position : c.verticalSyncPosition = 0
  row : c.vCounter = 0

namespace Crtc.SingleRow

variable {c : Crtc}

theorem stepHsync (h : c.SingleRow) : c.stepHsync.SingleRow := by
  unfold Crtc.stepHsync
  split
  · exact ⟨h.total, h.position, h.row⟩
  · exact h

theorem stepVsync (h : c.SingleRow) : c.stepVsync.SingleRow := by
  unfold Crtc.stepVsync
  split
  · exact ⟨h.total, h.position, h.row⟩
  · exact h

theorem nextRow (h : c.SingleRow) : c.nextRow.SingleRow := by
  refine ⟨h.total, h.position, ?_⟩
  simp [Crtc.nextRow, h.total, h.row]

theorem nextLine (h : c.SingleRow) : c.nextLine.SingleRow := by
  have hstep := h.stepVsync
  simp only [Crtc.nextLine]
  split
  · exact hstep.nextRow
  · exact ⟨hstep.total, hstep.position, hstep.row⟩

theorem nextChar (h : c.SingleRow) : c.nextChar.SingleRow := by
  simp only [Crtc.nextChar]
  split
  · exact nextLine ⟨h.total, h.position, h.row⟩
  · exact ⟨h.total, h.position, h.row⟩

theorem startHsync (h : c.SingleRow) : c.startHsync.SingleRow := by
  unfold Crtc.startHsync
  split
  · exact ⟨h.total, h.position, h.row⟩
  · exact h

theorem startVsync (h : c.SingleRow) : c.startVsync.SingleRow ∧ c.startVsync.vsync = true := by
  unfold Crtc.startVsync
  cases hup : c.vsync with
  | true => simp [hup, h]
  | false =>
    rw [if_pos (by rw [h.row, h.position]; rfl)]
    exact ⟨⟨h.total, h.position, h.row⟩, rfl⟩

/-- So a pulse that ends begins again at once. -/
theorem clock (h : c.SingleRow) : c.clock.SingleRow ∧ c.clock.vsync = true :=
  h.stepHsync.nextChar.startHsync.startVsync

end Crtc.SingleRow

theorem Board.peek_of_blank {b : Board} (h : b.memory = .initial 4 .zeroed .zeroed) (address : UInt16) :
    b.peek address = 0 := by
  have hbank : ∀ source, Pager.bank (.initial 4 .zeroed .zeroed) source = .zeroed := by
    intro source
    cases source with
    | ram bank =>
      simp only [Pager.bank, Memory.initial, Memory.bank, Array.getElem?_replicate]
      split <;> rfl
    | lowerRom => rfl
    | upperRom => rfl
    | expansion slot => simp [Pager.bank, Memory.expansion, Memory.initial, Vector.get]
  rw [Board.peek, Pager.read, h, hbank]
  exact Block.get_fill ..

theorem Cpu.executeNext_nop {β : Type} [Bus β] {core : Cpu.Core β}
    (h : Bus.fetch core.bus core.regs.pc = (0, core.bus)) : Cpu.executeNext core =
      (4, ⟨{ core.regs with pc := core.regs.pc + 1 }.refresh, core.shadow, core.bus⟩) := by
  have hdecode : Cpu.Opcode.decode 0 = .plain .nop := by decide
  unfold Cpu.executeNext
  simp only [bind, StateT.bind, Cpu.Exec.fetchOpcode, h, hdecode]
  rfl

namespace Machine

/-- The processor runs through memory in which there is nothing, and no interrupt is accepted. -/
structure Idles (m : Machine) : Prop where
  memory : m.board.memory = .initial 4 .zeroed .zeroed
  nmiLatch : m.cpu.nmiLatch = false
  iff1 : m.cpu.regs.iff1 = false
  halted : m.cpu.regs.halted = false

theorem Idles.instruction {m : Machine} (h : m.Idles) (journal : Journal) :
    (MachineEvent.apply (m, journal) .instruction).1.Idles ∧
      (MachineEvent.apply (m, journal) .instruction).1.board = m.board := by
  have hfetch : ∀ core : Cpu.Core Bench, core.bus = ⟨m.board, journal⟩ →
      Bus.fetch core.bus core.regs.pc = (0, core.bus) := by
    rintro ⟨regs, shadow, bus⟩ rfl
    exact congrArg (·, _) (Board.peek_of_blank h.memory _)
  have hstep : m.cpu.step (⟨m.board, journal⟩ : Bench) =
      (4, { m.cpu with
        regs := { m.cpu.regs with pc := m.cpu.regs.pc + 1 }.refresh
        shadow := false
        total := m.cpu.total.advance 4 }, ⟨m.board, journal⟩) := by
    rw [Cpu.step, if_neg (by simp [h.nmiLatch]), if_neg (by simp [h.iff1]), if_neg (by simp [h.halted]),
      Cpu.spend, Cpu.executeNext_nop (hfetch _ rfl)]
  simp only [MachineEvent.apply, hstep]
  exact ⟨⟨h.memory, h.nmiLatch, h.iff1, h.halted⟩, trivial⟩

theorem Idles.vsyncEdge {m : Machine} (h : m.Idles) (edge : Crtc.Edge) : (m.vsyncEdge edge).Idles := by
  cases edge <;> exact ⟨h.memory, h.nmiLatch, h.iff1, h.halted⟩

theorem Idles.hsyncEdge {m : Machine} (h : m.Idles) (edge : Crtc.Edge) : (m.hsyncEdge edge).Idles := by
  cases edge with
  | rising => exact ⟨h.memory, h.nmiLatch, h.iff1, h.halted⟩
  | falling =>
    simp only [Machine.hsyncEdge]
    split <;> exact ⟨h.memory, h.nmiLatch, h.iff1, h.halted⟩

theorem Idles.clockBeam {m : Machine} (h : m.Idles) : m.clockBeam.Idles := by
  have hclocked : { m with board := { m.board with crtc := m.board.crtc.clock } }.Idles :=
    ⟨h.memory, h.nmiLatch, h.iff1, h.halted⟩
  simp only [Machine.clockBeam]
  cases Crtc.Edge.between m.board.crtc.vsync m.board.crtc.clock.vsync with
  | none =>
    cases Crtc.Edge.between m.board.crtc.hsync m.board.crtc.clock.hsync with
    | none => exact hclocked
    | some edge => exact hclocked.hsyncEdge edge
  | some edge =>
    cases Crtc.Edge.between m.board.crtc.hsync m.board.crtc.clock.hsync with
    | none => exact hclocked.vsyncEdge edge
    | some hedge => exact (hclocked.vsyncEdge edge).hsyncEdge hedge

end Machine

namespace MachineEvent

/-- A part of a frame. -/
def IsPart : MachineEvent → Prop
  | key .. => False
  | releaseKeys => False
  | reset => False
  | snapshot _ => False
  | _ => True

theorem isPart_of_mem_frameEvents {lines : List (List Nat)} {event : MachineEvent}
    (h : event ∈ frameEvents lines) : event.IsPart := by
  have hchar : ∀ steps, event ∈ charEvents steps → event.IsPart := by
    intro steps h
    simp only [charEvents, List.mem_cons, List.mem_append, List.mem_replicate, List.not_mem_nil, or_false] at h
    rcases h with rfl | rfl | ⟨-, rfl⟩ | rfl <;> trivial
  have hline : ∀ line, event ∈ lineEvents line → event.IsPart := by
    intro line h
    simp only [lineEvents, List.mem_cons, List.mem_append, List.mem_flatMap, List.not_mem_nil, or_false] at h
    rcases h with rfl | ⟨steps, -, h⟩ | rfl
    · trivial
    · exact hchar steps h
    · trivial
  simp only [frameEvents, List.mem_cons, List.mem_append, List.mem_flatMap, List.not_mem_nil, or_false] at h
  rcases h with rfl | ⟨line, -, h⟩ | rfl
  · trivial
  · exact hline line h
  · trivial

/-- The machine idles, and its picture is a single row. -/
structure Pulses (s : Machine × Journal) : Prop where
  idles : s.1.Idles
  singleRow : s.1.board.crtc.SingleRow

variable {s : Machine × Journal}

theorem Pulses.beam (h : Pulses s) : Pulses (apply s beam) ∧ (apply s beam).1.board.crtc.vsync = true := by
  have hcrtc : (MachineEvent.apply s .beam).1.board.crtc = s.1.board.crtc.clock := s.1.crtc_clockBeam
  obtain ⟨hrow, hup⟩ := h.singleRow.clock
  rw [← hcrtc] at hrow hup
  exact ⟨⟨h.idles.clockBeam, hrow⟩, hup⟩

/-- What follows the first clock of the beam leaves the sync up. -/
theorem Pulses.apply (h : Pulses s) (hup : s.1.board.crtc.vsync = true) {event : MachineEvent}
    (hpart : event.IsPart) : Pulses (apply s event) ∧ (MachineEvent.apply s event).1.board.crtc.vsync = true := by
  cases event with
  | beam => exact h.beam
  | instruction =>
    obtain ⟨hidles, hboard⟩ := h.idles.instruction s.2
    refine ⟨⟨hidles, ?_⟩, ?_⟩
    · rw [hboard]
      exact h.singleRow
    · rw [hboard]
      exact hup
  | frameBegins | lineBegins | grant | sound | lineEnds | frameEnds =>
    exact ⟨⟨⟨h.idles.memory, h.idles.nmiLatch, h.idles.iff1, h.idles.halted⟩, h.singleRow⟩, hup⟩
  | key | releaseKeys | reset | snapshot => exact hpart.elim

theorem Pulses.applyAll (h : Pulses s) (hup : s.1.board.crtc.vsync = true) {events : List MachineEvent}
    (hparts : ∀ event ∈ events, event.IsPart) : (applyAll s events).1.board.crtc.vsync = true := by
  induction events generalizing s with
  | nil => exact hup
  | cons event events ih =>
    obtain ⟨hpulses, hup⟩ := h.apply hup (hparts event (by simp))
    exact ih hpulses hup fun e he => hparts e (by simp [he])

/-- At the end of a frame the sync is up. -/
theorem Pulses.clockFrame {m : Machine} {journal : Journal} (h : Pulses (m, journal)) (hlines : 0 < m.frame.lines) :
    (m.clockFrame journal).1.board.crtc.vsync = true := by
  obtain ⟨lines, hlength, hline, hframe⟩ := applyAll_frameEvents m journal
  have hparts : ∀ event ∈ frameEvents lines, event.IsPart := fun _ => isPart_of_mem_frameEvents
  rw [← hframe]
  match lines, hlength, hline, hparts with
  | (steps :: line) :: lines, _, _, hparts =>
    have hbegun : Pulses (MachineEvent.apply (MachineEvent.apply (m, journal) frameBegins) lineBegins) :=
      ⟨⟨h.idles.memory, h.idles.nmiLatch, h.idles.iff1, h.idles.halted⟩, h.singleRow⟩
    obtain ⟨hpulses, hup⟩ := hbegun.beam
    refine hpulses.applyAll hup fun event hevent => hparts event ?_
    exact List.mem_cons_of_mem _ (List.mem_cons_of_mem _ (List.mem_cons_of_mem _ hevent))
  | [] :: lines, _, hline, _ => exact absurd (hline [] (by simp)) (by decide)
  | [], hlength, _, _ => exact absurd hlength (by simp; omega)

end MachineEvent

end AmstradCpc
