/-
What happens to a machine, one thing at a time. A frame is taken apart into the clocks of the
beam, the instructions of the processor and the clocks of the sound chip (`applyAll_frameEvents`),
with what is done about a line and about the frame in between. So what every single event keeps
true of a machine holds at the end of a frame and between any two instructions in it. What the
events of a character need when they come is looked at once, and holds throughout the frame
(`CharRows`).
-/
import AmstradCpc.Proofs.Cpu.Cycles

namespace AmstradCpc

/-- What happens to a machine. -/
inductive MachineEvent where
  | frameBegins
  | lineBegins
  /-- The display controller is clocked, and passes on what its sync signals do. -/
  | beam
  /-- The processor is granted the time of a character. -/
  | grant
  /-- The processor runs an instruction, or accepts an interrupt. -/
  | instruction
  /-- The sound chip is clocked. -/
  | sound
  | lineEnds
  | frameEnds
  | key (key : Key) (down : Bool)
  | releaseKeys
  | reset
  | snapshot (data : ByteArray)

namespace MachineEvent

open Machine (charStates charsPerLine clockChars clockLine clockLines clockFrame)

/-- The machine and what has been said after an event. -/
def apply (s : Machine × Journal) : MachineEvent → Machine × Journal
  | frameBegins => ({ s.1 with frame := { s.1.frame with index := 0 } }, s.2)
  | lineBegins => ({ s.1 with frame := s.1.frame.beginLine s.1.board.crtc }, s.2)
  | beam => (s.1.clockBeam, s.2 ++ s.1.beamNotices)
  | grant => ({ s.1 with cpu := { s.1.cpu with budget := s.1.cpu.budget + charStates.toInt32 } }, s.2)
  | instruction =>
    let (cost, cpu, bench) := s.1.cpu.step (⟨s.1.board, s.2⟩ : Bench)
    ({ s.1 with cpu := { cpu with budget := cpu.budget - .ofNat cost }, board := bench.board }, bench.journal)
  | sound => (s.1.clockSound, s.2)
  | lineEnds => ({ s.1 with frame := s.1.frame.endLine }, s.2)
  | frameEnds =>
    ({ s.1 with
      board := { s.1.board with drives := s.1.board.drives.clock }
      frame := s.1.frame.paint s.1.board.memory
      frameCount := s.1.frameCount + 1 }, s.2 ++ s.1.board.drives.clockNotices)
  | key which down => (s.1.setKey which down, s.2)
  | releaseKeys => (s.1.releaseAllKeys, s.2)
  | reset => (s.1.reset, s.2.push Machine.resetNotice)
  | snapshot data =>
    ((Snapshot.loadOrReset data s.1).2, (Snapshot.loadNotices data s.1).foldl Array.push s.2)

/-- A row of events. -/
def applyAll (s : Machine × Journal) (events : List MachineEvent) : Machine × Journal := events.foldl apply s

theorem applyAll_append (s : Machine × Journal) (events more : List MachineEvent) :
    applyAll s (events ++ more) = applyAll (applyAll s events) more := List.foldl_append ..

theorem applyAll_cons (s : Machine × Journal) (event : MachineEvent) (events : List MachineEvent) :
    applyAll s (event :: events) = applyAll (event.apply s) events := rfl

/-! ## Rows that meet a condition -/

/-- Every event of a row meets a condition when it comes. -/
def Throughout (P : Machine × Journal → MachineEvent → Prop) : Machine × Journal → List MachineEvent → Prop
  | _, [] => True
  | s, event :: events => P s event ∧ Throughout P (event.apply s) events

theorem throughout_append {P : Machine × Journal → MachineEvent → Prop} {s : Machine × Journal}
    (events more : List MachineEvent) :
    Throughout P s (events ++ more) ↔ Throughout P s events ∧ Throughout P (applyAll s events) more := by
  induction events generalizing s with
  | nil => exact (iff_of_eq (true_and _)).symm
  | cons event events ih => exact (and_congr_right fun _ => ih).trans and_assoc.symm

/-- The row leads from one state to another, and every event of it meets a condition. -/
structure Leads (P : Machine × Journal → MachineEvent → Prop) (s : Machine × Journal)
    (events : List MachineEvent) (s' : Machine × Journal) : Prop where
  throughout : Throughout P s events
  applies : applyAll s events = s'

namespace Leads

variable {P : Machine × Journal → MachineEvent → Prop} {s s' s'' : Machine × Journal}
  {events more : List MachineEvent}

theorem cons {event : MachineEvent} (h : P s event) (hrest : Leads P (event.apply s) events s') :
    Leads P s (event :: events) s' := ⟨⟨h, hrest.throughout⟩, hrest.applies⟩

theorem append (h : Leads P s events s') (hmore : Leads P s' more s'') : Leads P s (events ++ more) s'' := by
  obtain ⟨hevents, rfl⟩ := h
  obtain ⟨hmore, rfl⟩ := hmore
  exact ⟨(throughout_append _ _).mpr ⟨hevents, hmore⟩, applyAll_append ..⟩

theorem concat {event : MachineEvent} (h : Leads P s events s') (hlast : P s' event) :
    Leads P s (events ++ [event]) (event.apply s') := h.append ⟨⟨hlast, trivial⟩, rfl⟩

/-- A loop each of whose turns is a row. `I` is what the turns rely on. -/
theorem iterate {ι : Type} {row : ι → List MachineEvent} {Q : ι → Prop} {I : Machine × Journal → Prop}
    {turn : Machine × Journal → Machine × Journal}
    (hturn : ∀ s, I s → I (turn s) ∧ ∃ i, Q i ∧ Leads P s (row i) (turn s)) (n : Nat) (hs : I s) :
    I (turn^[n] s) ∧ ∃ turns : List ι, turns.length = n ∧ (∀ i ∈ turns, Q i) ∧
      Leads P s (turns.flatMap row) (turn^[n] s) := by
  induction n generalizing s with
  | zero => exact ⟨hs, [], rfl, nofun, trivial, rfl⟩
  | succ n ih =>
    obtain ⟨hnext, i, hi, hfirst⟩ := hturn s hs
    obtain ⟨hlast, turns, hlength, hturns, hrest⟩ := ih hnext
    exact ⟨hlast, i :: turns, congrArg (· + 1) hlength, List.forall_mem_cons.mpr ⟨hi, hturns⟩,
      hfirst.append hrest⟩

end Leads

/-! ## A frame -/

/-- The time of a character, in which the processor takes so many steps. -/
def charEvents (steps : Nat) : List MachineEvent :=
  beam :: grant :: (List.replicate steps instruction ++ [sound])

/-- A raster line, with the steps in the time of each of its characters. -/
def lineEvents (line : List Nat) : List MachineEvent := lineBegins :: (line.flatMap charEvents ++ [lineEnds])

/-- A frame, with the steps in each of its lines. -/
def frameEvents (lines : List (List Nat)) : List MachineEvent :=
  frameBegins :: (lines.flatMap lineEvents ++ [frameEnds])

theorem clockChars_eq (n : Nat) (s : Machine × Journal) :
    clockChars n s.1 s.2 = (fun s => s.1.clockChar s.2)^[n] s := by
  induction n generalizing s with
  | zero => rfl
  | succ n ih => exact ih (s.1.clockChar s.2)

theorem clockLines_eq (n : Nat) (s : Machine × Journal) :
    clockLines n s.1 s.2 = (fun s => s.1.clockLine s.2)^[n] s := by
  induction n generalizing s with
  | zero => rfl
  | succ n ih =>
    rw [Function.iterate_succ_apply, ← ih]
    simp only [clockLines]

/-- The characters of a line come after its beginning and before its end. -/
theorem clockLine_eq (s : Machine × Journal) : s.1.clockLine s.2 =
    lineEnds.apply ((fun s => s.1.clockChar s.2)^[charsPerLine] (lineBegins.apply s)) := by
  rw [← clockChars_eq]
  simp only [Machine.clockLine, apply]

/-- The lines of a frame come after its beginning and before its end. -/
theorem clockFrame_eq (s : Machine × Journal) : s.1.clockFrame s.2 =
    frameEnds.apply ((fun s => s.1.clockLine s.2)^[s.1.frame.lines] (frameBegins.apply s)) := by
  rw [← clockLines_eq]
  simp only [Machine.clockFrame, apply]

/-- The time of a character is a row whose events meet a condition, where the machine is in order
beforehand, and it is in order afterwards. -/
structure CharRows (P : Machine × Journal → MachineEvent → Prop) (I : Machine × Journal → Prop) : Prop where
  char : ∀ s, I s → I (s.1.clockChar s.2) ∧ ∃ steps, Leads P s (charEvents steps) (s.1.clockChar s.2)
  frame : ∀ (m : Machine) (journal : Journal) (frame : Frame), I (m, journal) → I ({ m with frame }, journal)
  marks : ∀ s, P s frameBegins ∧ P s lineBegins ∧ P s lineEnds ∧ P s frameEnds

namespace CharRows

variable {P : Machine × Journal → MachineEvent → Prop} {I : Machine × Journal → Prop} {s : Machine × Journal}

theorem line (h : CharRows P I) (hs : I s) : I (s.1.clockLine s.2) ∧
    ∃ line : List Nat, line.length = charsPerLine ∧ Leads P s (lineEvents line) (s.1.clockLine s.2) := by
  have hbegun : I (lineBegins.apply s) := h.frame s.1 s.2 _ hs
  have hturn (s : Machine × Journal) (hs : I s) : I (s.1.clockChar s.2) ∧
      ∃ steps, True ∧ Leads P s (charEvents steps) (s.1.clockChar s.2) := by
    obtain ⟨hnext, steps, hsteps⟩ := h.char s hs
    exact ⟨hnext, steps, trivial, hsteps⟩
  obtain ⟨hlast, line, hlength, -, hline⟩ := Leads.iterate hturn charsPerLine hbegun
  rw [clockLine_eq]
  generalize (fun s : Machine × Journal => s.1.clockChar s.2)^[charsPerLine] (lineBegins.apply s) = last
    at hlast hline ⊢
  exact ⟨h.frame last.1 last.2 _ hlast, line, hlength,
    .cons (h.marks s).2.1 (hline.concat (h.marks last).2.2.1)⟩

theorem frameRow (h : CharRows P I) (hs : I s) : ∃ lines : List (List Nat), lines.length = s.1.frame.lines ∧
    (∀ line ∈ lines, line.length = charsPerLine) ∧ Leads P s (frameEvents lines) (s.1.clockFrame s.2) := by
  have hbegun : I (frameBegins.apply s) := h.frame s.1 s.2 _ hs
  obtain ⟨-, lines, hlength, hlines, hleads⟩ :=
    Leads.iterate (fun _ hs => h.line hs) s.1.frame.lines hbegun
  rw [clockFrame_eq]
  exact ⟨lines, hlength, hlines, .cons (h.marks s).1 (hleads.concat (h.marks _).2.2.2)⟩

end CharRows

theorem applyAll_steps (fuel : Nat) (s : Machine × Journal) : ∃ steps,
    applyAll s (List.replicate steps instruction) =
      let after := s.1.cpu.runBudget fuel (⟨s.1.board, s.2⟩ : Bench)
      ({ s.1 with cpu := after.1, board := after.2.board }, after.2.journal) := by
  induction fuel generalizing s with
  | zero => exact ⟨0, rfl⟩
  | succ fuel ih =>
    unfold Cpu.runBudget
    by_cases h : 0 < s.1.cpu.budget
    · obtain ⟨steps, hsteps⟩ := ih (apply s instruction)
      rw [if_pos h]
      exact ⟨steps + 1, hsteps⟩
    · rw [if_neg h]
      exact ⟨0, rfl⟩

theorem throughout_true (s : Machine × Journal) (events : List MachineEvent) :
    Throughout (fun _ _ => True) s events := by
  induction events generalizing s with
  | nil => trivial
  | cons event events ih => exact ⟨trivial, ih _⟩

/-- Nothing has to be in order for the time of a character to be a row. -/
theorem charRows : CharRows (fun _ _ => True) (fun _ => True) where
  char s _ := by
    obtain ⟨steps, hsteps⟩ := applyAll_steps _ (grant.apply (beam.apply s))
    refine ⟨trivial, steps, throughout_true _ _, ?_⟩
    rw [charEvents, applyAll_cons, applyAll_cons, applyAll_append, hsteps]
    rfl
  frame _ _ _ _ := trivial
  marks _ := ⟨trivial, trivial, trivial, trivial⟩

/-- **A frame is a row of events**: of as many lines as it has, each of which has the time of 64
characters, in which the processor takes one step after the other. -/
theorem applyAll_frameEvents (m : Machine) (journal : Journal) : ∃ lines : List (List Nat),
    lines.length = m.frame.lines ∧ (∀ line ∈ lines, line.length = charsPerLine) ∧
      applyAll (m, journal) (frameEvents lines) = m.clockFrame journal := by
  obtain ⟨lines, hlength, hlines, hleads⟩ := charRows.frameRow (trivial : (fun _ => True) (m, journal))
  exact ⟨lines, hlength, hlines, hleads.applies⟩

end MachineEvent

/-! ## The beam -/

namespace Machine

theorem crtc_vsyncEdge (m : Machine) (edge : Crtc.Edge) : (m.vsyncEdge edge).board.crtc = m.board.crtc := by
  cases edge <;> rfl

theorem crtc_hsyncEdge (m : Machine) (edge : Crtc.Edge) : (m.hsyncEdge edge).board.crtc = m.board.crtc := by
  cases edge <;> rfl

theorem crtc_clockBeam (m : Machine) : m.clockBeam.board.crtc = m.board.crtc.clock := by
  simp only [clockBeam]
  cases Crtc.Edge.between m.board.crtc.vsync m.board.crtc.clock.vsync <;>
    cases Crtc.Edge.between m.board.crtc.hsync m.board.crtc.clock.hsync <;>
      simp only [crtc_vsyncEdge, crtc_hsyncEdge]

end Machine

end AmstradCpc
