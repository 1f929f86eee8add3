/-
The counter of lines in the gate array. It goes up at the end of every line and starts again when
it is full, which is tested by equality, so a count beyond that goes on until it overruns.
Nothing that happens in a frame takes it there (`Kept`, `keeps_apply`), nor does a reset; a
snapshot can. `count_inRange_iff` says that this is the only way, and that a counter in its range
lets no 54 lines go by without an interrupt.
-/
import AmstradCpc.Proofs.Machine.Beam
import AmstradCpc.Proofs.Snapshot.MemoryMap

namespace AmstradCpc

namespace GateArray

/-- The counter is below the count that interrupts, and the delay is one that the vertical sync
sets. -/
structure InRange (g : GateArray) : Prop where
  counter : g.counter ≤ 51
  delayed : g.delayed ≤ 2

theorem inRange_iff (g : GateArray) : g.InRange ↔ g.counter ≤ 51 ∧ g.delayed ≤ 2 :=
  ⟨fun h => ⟨h.counter, h.delayed⟩, fun h => ⟨h.1, h.2⟩⟩

instance (g : GateArray) : Decidable g.InRange := decidable_of_iff' _ g.inRange_iff

variable {g : GateArray}

theorem counter_hsyncEnds (h : g.counter ≤ 51) : g.hsyncEnds.1.counter ≤ 51 := by
  simp only [hsyncEnds, interruptLines]
  grind

theorem overrun_hsyncEnds (h : g.counter ≤ 51) : g.hsyncEnds.1.overrun = g.overrun := by
  have hroom : (g.counter == 0xFF) = false := by
    rw [beq_eq_false_iff_ne]
    rintro hfull
    rw [hfull] at h
    exact absurd h (by decide)
  simp only [hsyncEnds, hroom, Bool.or_false]
  split
  · rfl
  · split <;> rfl

theorem InRange.hsyncEnds (h : g.InRange) : g.hsyncEnds.1.InRange := by
  refine ⟨counter_hsyncEnds h.counter, ?_⟩
  have hdelayed := h.delayed
  simp only [GateArray.hsyncEnds, interruptLines]
  grind

theorem counter_acknowledge (h : g.counter ≤ 51) : g.acknowledge.counter ≤ 51 :=
  UInt8.le_trans UInt8.and_le_left h

theorem counter_write (v : UInt8) : (g.write v).1.counter = g.counter ∨ (g.write v).1.counter = 0 := by
  simp only [write]
  split
  · exact .inl rfl
  · exact .inl rfl
  · simp only [setControl]
    split
    · exact .inr rfl
    · exact .inl rfl
  · exact .inl rfl

/-- How many lines can still end, at the most, before one of them interrupts. -/
def patience (g : GateArray) : Nat := if g.delayed = 0 then 52 - g.counter.toNat else 52 + g.delayed.toNat

theorem InRange.patience_pos (h : g.InRange) : 0 < g.patience := by
  have hcounter : g.counter.toNat ≤ 51 := h.counter
  unfold patience
  split <;> omega

theorem InRange.patience_le (h : g.InRange) : g.patience ≤ 54 := by
  have hdelayed : g.delayed.toNat ≤ 2 := h.delayed
  unfold patience
  split <;> omega

theorem InRange.patience_hsyncEnds (h : g.InRange) (hquiet : g.hsyncEnds.2 = false) :
    g.hsyncEnds.1.patience < g.patience := by
  by_cases hzero : g.delayed = 0
  · have hfull : (g.counter + 1 == interruptLines) = false := by
      simpa only [GateArray.hsyncEnds, hzero, if_true] using hquiet
    have hcounter : g.counter.toNat ≤ 51 := h.counter
    have hnext : (g.counter + 1).toNat = g.counter.toNat + 1 := by
      rw [UInt8.toNat_add, Nat.mod_eq_of_lt (by simp; omega)]
      rfl
    simp only [GateArray.hsyncEnds, hzero, hfull, patience, if_true, Bool.false_eq_true, if_false, hnext]
    omega
  · by_cases hone : g.delayed = 1
    · simp [GateArray.hsyncEnds, hone, patience]
    · have htwo : g.delayed = 2 := by
        have := h.delayed
        grind
      simp [GateArray.hsyncEnds, htwo, patience]

/-- A property that everything a frame does to a gate array keeps. -/
structure Kept (P : GateArray → Prop) : Prop where
  write : ∀ {g : GateArray} (v : UInt8), P g → P (g.write v).1
  acknowledge : ∀ {g : GateArray}, P g → P g.acknowledge
  vsyncBegins : ∀ {g : GateArray}, P g → P g.vsyncBegins
  hsyncEnds : ∀ {g : GateArray}, P g → P g.hsyncEnds.1

/-- The counter is below the count that interrupts, and has not overrun if it had not before. -/
def Counts (overrun : Bool) (g : GateArray) : Prop := g.counter ≤ 51 ∧ g.overrun = overrun

theorem delayed_write (v : UInt8) : (g.write v).1.delayed = g.delayed := by
  simp only [write]
  split <;> rfl

theorem overrun_write (v : UInt8) : (g.write v).1.overrun = g.overrun := by
  simp only [write]
  split <;> rfl

theorem counter_write_le (v : UInt8) (h : g.counter ≤ 51) : (g.write v).1.counter ≤ 51 := by
  rcases counter_write (g := g) v with hsame | hzero
  · rwa [hsame]
  · rw [hzero]
    decide

theorem kept_counts (overrun : Bool) : Kept (Counts overrun) where
  write v h := ⟨counter_write_le v h.1, (overrun_write v).trans h.2⟩
  acknowledge h := ⟨counter_acknowledge h.1, h.2⟩
  vsyncBegins h := h
  hsyncEnds h := ⟨counter_hsyncEnds h.1, (overrun_hsyncEnds h.1).trans h.2⟩

theorem kept_inRange : Kept InRange where
  write v h := ⟨counter_write_le v h.counter, (delayed_write v).symm ▸ h.delayed⟩
  acknowledge h := ⟨counter_acknowledge h.counter, h.delayed⟩
  vsyncBegins h := ⟨h.counter, show (2 : UInt8) ≤ 2 by decide⟩
  hsyncEnds h := h.hsyncEnds

end GateArray

/-! ## What an event does to the gate array -/

namespace Board

theorem gateArray_writeGateArray (b : Board) (v : UInt8) :
    (b.writeGateArray v).gateArray = (b.gateArray.write v).1 := by
  simp only [writeGateArray]
  split <;> rfl

theorem gateArray_writeCrtc (b : Board) (register v : UInt8) :
    (b.writeCrtc register v).gateArray = b.gateArray := by
  simp only [writeCrtc]
  split <;> rfl

theorem gateArray_writeDrives (b : Board) (register : DriveRegister) (v : UInt8) :
    (b.writeDrives register v).gateArray = b.gateArray := by
  cases register <;> rfl

theorem gateArray_output (b : Board) (port : UInt16) (v : UInt8) : (b.output port v).gateArray =
    if low port 15 then (b.gateArray.write v).1 else b.gateArray := by
  simp only [output, writePpi, selectRom, remap, apply_ite Board.gateArray, gateArray_writeDrives,
    gateArray_writeCrtc, gateArray_writeGateArray, ite_self]

theorem gateArray_input (b : Board) (port : UInt16) : (b.input port).2.gateArray = b.gateArray := by
  simp only [input]
  split
  · split <;> rfl
  · rfl

end Board

theorem GateArray.Kept.run {P : GateArray → Prop} (hP : Kept P) {bench : Bench} (h : P bench.board.gateArray)
    (cycle : Cycle) : P (cycle.run bench).2.board.gateArray := by
  cases cycle with
  | fetch | read | write => exact h
  | acknowledge => exact hP.acknowledge h
  | input port =>
    show P (bench.board.input port).2.gateArray
    rwa [Board.gateArray_input]
  | output port v =>
    show P (bench.board.output port v).gateArray
    rw [Board.gateArray_output]
    split
    · exact hP.write v h
    · exact h

theorem GateArray.Kept.runAll {P : GateArray → Prop} (hP : Kept P) {bench : Bench} (h : P bench.board.gateArray)
    (cycles : List Cycle) : P (Cycle.runAll bench cycles).board.gateArray := by
  induction cycles generalizing bench with
  | nil => exact h
  | cons cycle cycles ih => exact ih (hP.run h cycle)

theorem GateArray.Kept.clockBeam {P : GateArray → Prop} (hP : Kept P) {m : Machine} (h : P m.board.gateArray) :
    P m.clockBeam.board.gateArray := by
  have hvsync : P m.beamGateArray := by
    unfold Machine.beamGateArray
    split
    · exact hP.vsyncBegins h
    · exact h
  rw [Machine.clockBeam_eq]
  show P (if m.board.crtc.hsyncFalls then m.beamGateArray.hsyncEnds.1 else m.beamGateArray)
  split
  · exact hP.hsyncEnds hvsync
  · exact hvsync

namespace MachineEvent

variable {s : Machine × Journal} {events : List MachineEvent}

/-- Everything but a reset and a snapshot happens to a gate array in frames. -/
theorem keeps_apply {P : GateArray → Prop} (hP : GateArray.Kept P) (h : P s.1.board.gateArray)
    {event : MachineEvent} (hreset : event ≠ reset) (hsnapshot : ∀ data, event ≠ snapshot data) :
    P (event.apply s).1.board.gateArray := by
  cases event with
  | beam => exact hP.clockBeam h
  | instruction =>
    obtain ⟨cycles, hcycles⟩ := s.1.cpu.step_onlyCycles (⟨s.1.board, s.2⟩ : Bench)
    have hbench : P (Cycle.runAll (⟨s.1.board, s.2⟩ : Bench) cycles).board.gateArray := hP.runAll h cycles
    rwa [← hcycles] at hbench
  | reset => exact absurd rfl hreset
  | snapshot data => exact absurd rfl (hsnapshot data)
  | frameBegins | lineBegins | grant | sound | lineEnds | frameEnds | key | releaseKeys => exact h

/-! ## The count of a snapshot -/

/-- If the event is a snapshot that is taken, the count that it has is one that a gate array can
get to. Only the latest version has a count; a machine that takes another keeps its own. -/
def TakesCount (s : Machine × Journal) : MachineEvent → Prop
  | snapshot data =>
    Snapshot.Acceptable data s.1.board.memory.kilobytes → Snapshot.hasDriveState data = true →
      byteAt data Snapshot.counterPlace &&& 0x3F ≤ 51 ∧ byteAt data Snapshot.delayedPlace ≤ 2
  | _ => True

theorem inRange_loaded_iff (data : ByteArray) {m : Machine} (h : m.board.gateArray.InRange) :
    (Snapshot.loaded data m).board.gateArray.InRange ↔ (Snapshot.hasDriveState data = true →
      byteAt data Snapshot.counterPlace &&& 0x3F ≤ 51 ∧ byteAt data Snapshot.delayedPlace ≤ 2) := by
  rw [Snapshot.gateArray_loaded, GateArray.inRange_iff]
  split
  next hlatest => simp only [hlatest, true_implies]
  next hearly => exact iff_of_true ⟨h.counter, h.delayed⟩ fun hlatest => absurd hlatest hearly

/-- One event. -/
theorem inRange_apply_iff (h : s.1.board.gateArray.InRange) (event : MachineEvent) :
    (event.apply s).1.board.gateArray.InRange ↔ event.TakesCount s := by
  have hnew : ({} : GateArray).InRange := by decide
  cases event with
  | reset => exact iff_of_true hnew trivial
  | snapshot data =>
    by_cases hacceptable : Snapshot.Acceptable data s.1.board.memory.kilobytes
    · simp only [apply, TakesCount, Snapshot.loadOrReset_of_acceptable hacceptable, hacceptable, true_implies]
      exact inRange_loaded_iff data h
    · obtain ⟨e, hload⟩ := Snapshot.loadOrReset_of_not_acceptable hacceptable
      simp only [apply, TakesCount, hload]
      exact iff_of_true hnew fun hyes => absurd hyes hacceptable
  | _ => exact iff_of_true (keeps_apply GateArray.kept_inRange h (by simp) (by simp)) trivial

theorem prefix_inRange_iff (h : s.1.board.gateArray.InRange) :
    (∀ before, before <+: events → (applyAll s before).1.board.gateArray.InRange) ↔
      Throughout TakesCount s events := by
  induction events generalizing s with
  | nil =>
    refine iff_of_true (fun before hbefore => ?_) trivial
    rw [List.prefix_nil.mp hbefore]
    exact h
  | cons event events ih =>
    constructor
    · intro hall
      have hnext : (event.apply s).1.board.gateArray.InRange := hall [event] ⟨events, rfl⟩
      refine ⟨(inRange_apply_iff h event).mp hnext, (ih hnext).mp fun before hbefore => ?_⟩
      exact hall (event :: before) ((List.prefix_cons_inj event).mpr hbefore)
    · rintro ⟨htakes, hrest⟩ before hbefore
      have hnext := (inRange_apply_iff h event).mpr htakes
      cases before with
      | nil => exact h
      | cons first before =>
        obtain ⟨rfl, hrow⟩ := List.cons_prefix_cons.mp hbefore
        exact (ih hnext).mpr hrest before hrow

theorem overrun_apply (h : s.1.board.gateArray.InRange) (hoverrun : s.1.board.gateArray.overrun = false)
    (event : MachineEvent) : (event.apply s).1.board.gateArray.overrun = false := by
  cases event with
  | reset => rfl
  | snapshot data =>
    by_cases hacceptable : Snapshot.Acceptable data s.1.board.memory.kilobytes
    · simp only [apply, Snapshot.loadOrReset_of_acceptable hacceptable, Snapshot.gateArray_loaded]
      split <;> exact hoverrun
    · obtain ⟨e, hload⟩ := Snapshot.loadOrReset_of_not_acceptable hacceptable
      simp only [apply, hload]
      rfl
  | _ =>
    refine And.right (?_ : GateArray.Counts false _)
    exact keeps_apply (GateArray.kept_counts false) ⟨h.counter, hoverrun⟩ (by simp) (by simp)

end MachineEvent

/-! ## Lines without an interrupt -/

/-- Counter and delay are as they were. -/
structure GateArray.SameCount (g g' : GateArray) : Prop where
  counter : g'.counter = g.counter
  delayed : g'.delayed = g.delayed

namespace GateArray.SameCount

variable {g g' g'' : GateArray}

theorem refl (g : GateArray) : g.SameCount g := ⟨rfl, rfl⟩

theorem trans (h : g.SameCount g') (h' : g'.SameCount g'') : g.SameCount g'' :=
  ⟨h'.counter.trans h.counter, h'.delayed.trans h.delayed⟩

theorem patience_eq (h : g.SameCount g') : g'.patience = g.patience := by
  simp only [patience, h.counter, h.delayed]

theorem inRange (h : g.SameCount g') (hrange : g.InRange) : g'.InRange :=
  ⟨h.counter ▸ hrange.counter, h.delayed ▸ hrange.delayed⟩

end GateArray.SameCount

namespace Cycle

/-- An interrupt is acknowledged, or a program starts the counter again. -/
def RestartsCount : Cycle → Prop
  | .acknowledge => True
  | .output port v => Board.low port 15 = true ∧ v >>> 6 = 2 ∧ v &&& 0x10 ≠ 0
  | _ => False

theorem sameCount_write {g : GateArray} {v : UInt8} (h : ¬(v >>> 6 = 2 ∧ v &&& 0x10 ≠ 0)) :
    g.SameCount (g.write v).1 := by
  refine ⟨?_, GateArray.delayed_write v⟩
  simp only [GateArray.write]
  split
  · rfl
  · rfl
  next hcontrol =>
    have hkeeps : ¬(v &&& 0x10 != 0) = true := fun hset => h ⟨hcontrol, bne_iff_ne.mp hset⟩
    simp only [GateArray.setControl]
    rw [if_neg hkeeps]
  · rfl

theorem sameCount_run {bench : Bench} {cycle : Cycle} (h : ¬cycle.RestartsCount) :
    bench.board.gateArray.SameCount (cycle.run bench).2.board.gateArray := by
  cases cycle with
  | fetch | read | write => exact .refl _
  | acknowledge => exact absurd trivial h
  | input port =>
    show bench.board.gateArray.SameCount (bench.board.input port).2.gateArray
    rw [Board.gateArray_input]
    exact .refl _
  | output port v =>
    show bench.board.gateArray.SameCount (bench.board.output port v).gateArray
    rw [Board.gateArray_output]
    split
    next hlow => exact sameCount_write fun hrestarts => h ⟨hlow, hrestarts⟩
    next => exact .refl _

theorem sameCount_runAll (bench : Bench) {cycles : List Cycle} (h : ∀ cycle ∈ cycles, ¬cycle.RestartsCount) :
    bench.board.gateArray.SameCount (Cycle.runAll bench cycles).board.gateArray := by
  induction cycles generalizing bench with
  | nil => exact .refl _
  | cons cycle cycles ih =>
    exact (sameCount_run (h cycle (by simp))).trans (ih _ fun other hother => h other (by simp [hother]))

end Cycle

namespace MachineEvent

variable {s : Machine × Journal} {events : List MachineEvent}

/-- Nothing but the end of a line counts. -/
def SparesCount (s : Machine × Journal) : MachineEvent → Prop
  | beam => s.1.board.crtc.vsyncRises = false
  | instruction => ∃ cycles,
      (s.1.cpu.step (⟨s.1.board, s.2⟩ : Bench)).2.2 = Cycle.runAll (⟨s.1.board, s.2⟩ : Bench) cycles ∧
        ∀ cycle ∈ cycles, ¬cycle.RestartsCount
  | reset => False
  | snapshot data =>
    Snapshot.Acceptable data s.1.board.memory.kilobytes ∧ Snapshot.hasDriveState data = false
  | _ => True

/-- The horizontal sync falls. -/
def endsLine (s : Machine × Journal) : MachineEvent → Bool
  | beam => s.1.board.crtc.hsyncFalls
  | _ => false

/-- The gate array interrupts. -/
def interrupts (s : Machine × Journal) : MachineEvent → Bool
  | beam => s.1.lineInterrupts
  | _ => false

/-- How many lines end in a row of events. -/
def endedLines : Machine × Journal → List MachineEvent → Nat
  | _, [] => 0
  | s, event :: events => (event.endsLine s).toNat + endedLines (event.apply s) events

theorem intLatch_of_interrupts {event : MachineEvent} (h : event.interrupts s = true) :
    (event.apply s).1.cpu.intLatch = true := by
  cases event with
  | beam =>
    have hline : s.1.lineInterrupts = true := h
    show s.1.clockBeam.cpu.intLatch = true
    rw [Machine.clockBeam_eq]
    simp only [hline, if_true]
    rfl
  | _ => cases h

/-- An event that is not the end of a line. -/
theorem sameCount_apply {event : MachineEvent} (h : event.SparesCount s) (hline : event.endsLine s = false) :
    s.1.board.gateArray.SameCount (event.apply s).1.board.gateArray := by
  cases event with
  | beam =>
    have hvsync : s.1.board.crtc.vsyncRises = false := h
    have hhsync : s.1.board.crtc.hsyncFalls = false := hline
    show s.1.board.gateArray.SameCount s.1.clockBeam.board.gateArray
    rw [Machine.clockBeam_eq]
    simp only [hhsync, Machine.beamGateArray, hvsync, Bool.false_eq_true, if_false]
    exact .refl _
  | instruction =>
    obtain ⟨cycles, hcycles, hspares⟩ := h
    have hsame : s.1.board.gateArray.SameCount
        (Cycle.runAll (⟨s.1.board, s.2⟩ : Bench) cycles).board.gateArray :=
      Cycle.sameCount_runAll ⟨s.1.board, s.2⟩ hspares
    rwa [← hcycles] at hsame
  | reset => exact h.elim
  | snapshot data =>
    simp only [apply, Snapshot.loadOrReset_of_acceptable h.1, Snapshot.gateArray_loaded, h.2]
    exact ⟨rfl, rfl⟩
  | frameBegins | lineBegins | grant | sound | lineEnds | frameEnds | key | releaseKeys => exact .refl _

/-- The end of a line. -/
theorem hsyncEnds_of_endsLine {event : MachineEvent} (h : event.SparesCount s) (hline : event.endsLine s = true) :
    (event.apply s).1.board.gateArray = s.1.board.gateArray.hsyncEnds.1 ∧
      event.interrupts s = s.1.board.gateArray.hsyncEnds.2 := by
  cases event with
  | beam =>
    have hvsync : s.1.board.crtc.vsyncRises = false := h
    have hhsync : s.1.board.crtc.hsyncFalls = true := hline
    constructor
    · show s.1.clockBeam.board.gateArray = _
      rw [Machine.clockBeam_eq]
      simp only [hhsync, Machine.beamGateArray, hvsync, Bool.false_eq_true, if_false, if_true]
    · simp only [interrupts, Machine.lineInterrupts, hhsync, Machine.beamGateArray, hvsync, Bool.false_eq_true,
        if_false, Bool.true_and]
  | _ => cases hline

/-- If nothing else counts, one of so many lines interrupts. -/
theorem exists_interrupts (h : s.1.board.gateArray.InRange) (hspares : Throughout SparesCount s events)
    (hlines : s.1.board.gateArray.patience ≤ endedLines s events) :
    ∃ before event after, events = before ++ event :: after ∧ event.interrupts (applyAll s before) = true := by
  induction events generalizing s with
  | nil => exact absurd hlines (Nat.not_le.mpr h.patience_pos)
  | cons event events ih =>
    have hfirst := hspares.1
    -- It is enough to find the interrupt among the other events.
    have hrest (hinRange : (event.apply s).1.board.gateArray.InRange)
        (hless : (event.apply s).1.board.gateArray.patience ≤ endedLines (event.apply s) events) :
        ∃ before other after, event :: events = before ++ other :: after ∧
          other.interrupts (applyAll s before) = true := by
      obtain ⟨before, other, after, rfl, hinterrupts⟩ := ih hinRange hspares.2 hless
      exact ⟨event :: before, other, after, rfl, hinterrupts⟩
    cases hline : event.endsLine s with
    | false =>
      have hsame := sameCount_apply hfirst hline
      refine hrest (hsame.inRange h) ?_
      rw [hsame.patience_eq]
      simpa only [endedLines, hline, Bool.toNat_false, Nat.zero_add] using hlines
    | true =>
      obtain ⟨hafter, hinterrupts⟩ := hsyncEnds_of_endsLine hfirst hline
      cases hquiet : s.1.board.gateArray.hsyncEnds.2 with
      | true => exact ⟨[], event, events, rfl, hinterrupts.trans hquiet⟩
      | false =>
        rw [hafter] at hrest
        have hless := h.patience_hsyncEnds hquiet
        simp only [endedLines, hline, Bool.toNat_true] at hlines
        exact hrest h.hsyncEnds (by omega)

/-! ## From construction on -/

theorem gateArray_built {c : Config} {roms : Roms} {m : Machine} (h : Machine.Built c roms m) :
    m.board.gateArray = {} := by
  obtain ⟨drives, rfl⟩ := h.onlyDrives
  rfl

theorem prefix_not_overrun (h : s.1.board.gateArray.InRange) (hoverrun : s.1.board.gateArray.overrun = false)
    (htakes : Throughout TakesCount s events) {before : List MachineEvent} (hbefore : before <+: events) :
    (applyAll s before).1.board.gateArray.overrun = false := by
  induction before generalizing s events with
  | nil => exact hoverrun
  | cons event before ih =>
    obtain ⟨rest, rfl⟩ := hbefore
    exact ih ((inRange_apply_iff h event).mpr htakes.1) (overrun_apply h hoverrun event) htakes.2 ⟨rest, rfl⟩

open Snapshot (newMachine128 built_newMachine128)

/-- A machine of 128K that has just been switched on, but for the counter. -/
def counting (counter : UInt8) : Machine :=
  { newMachine128 with
    board := { newMachine128.board with gateArray := { newMachine128.board.gateArray with counter } } }

theorem applyAll_snapshot {data : ByteArray} {m m' : Machine} (h : Snapshot.load data m = .ok m')
    (journal : Journal) : (applyAll (m, journal) [snapshot data]).1 = m' := by
  simp only [applyAll, List.foldl_cons, List.foldl_nil, apply, Snapshot.loadOrReset, h]

theorem gateArray_counting (counter : UInt8) : (counting counter).board.gateArray = { counter } := by
  show { newMachine128.board.gateArray with counter } = _
  rw [gateArray_built built_newMachine128]

theorem load_counting (counter : UInt8) :
    ∃ m', Snapshot.load (Snapshot.save (counting counter)) newMachine128 = .ok m' ∧
      m'.board.gateArray = { counter := counter &&& 0x3F } := by
  have hword : newMachine128.board.memory.kilobytes < 0x10000 := by decide +kernel
  have hmemory : (counting counter).board.memory = newMachine128.board.memory := rfl
  refine ⟨_, Snapshot.load_save (by rwa [hmemory]) (by rw [hmemory]), ?_⟩
  have hbits : (0 : UInt8) &&& 0x1F = 0 := by decide
  rw [Snapshot.gateArray_restored, gateArray_counting, gateArray_built built_newMachine128, Vector.map_replicate,
    hbits]
  simp [GateArray.setPen]

/-- **When the line counter is in its range.** A machine is switched on, with disks or without, and
after that frames run, keys go up and down, and there are resets and snapshots. Counter and delay
are in their ranges at every moment exactly if every snapshot that is taken and has a count has
one that is in range. Then the counter never overruns, and wherever 54 lines end while nothing
else happens to the counter, one of them interrupts. -/
theorem count_inRange_iff {c : Config} {roms : Roms} {m : Machine} (hbuilt : Machine.Built c roms m)
    (journal : Journal) (events : List MachineEvent) :
    let first := (m, journal)
    ((∀ before, before <+: events → (applyAll first before).1.board.gateArray.InRange) ↔
      Throughout TakesCount first events) ∧
    (Throughout TakesCount first events →
      (∀ before, before <+: events → (applyAll first before).1.board.gateArray.overrun = false) ∧
      ∀ before row after, events = before ++ row ++ after →
        Throughout SparesCount (applyAll first before) row → 54 ≤ endedLines (applyAll first before) row →
        ∃ quiet event rest, row = quiet ++ event :: rest ∧
          event.interrupts (applyAll first (before ++ quiet)) = true ∧
          (applyAll first (before ++ quiet ++ [event])).1.cpu.intLatch = true) ∧
    ∀ before, let (m, journal) := applyAll first before
      ∃ lines : List (List Nat), lines.length = m.frame.lines ∧
        (∀ line ∈ lines, line.length = Machine.charsPerLine) ∧
        applyAll (m, journal) (frameEvents lines) = m.clockFrame journal := by
  intro first
  have hnew : first.1.board.gateArray.InRange := by
    rw [gateArray_built hbuilt]
    decide
  have hfresh : first.1.board.gateArray.overrun = false := by rw [gateArray_built hbuilt]
  refine ⟨prefix_inRange_iff hnew, fun htakes => ⟨fun before => prefix_not_overrun hnew hfresh htakes, ?_⟩,
    fun before => applyAll_frameEvents _ _⟩
  rintro before row after rfl hspares hlines
  have hrange : (applyAll first before).1.board.gateArray.InRange :=
    (prefix_inRange_iff hnew).mpr htakes before ⟨row ++ after, (List.append_assoc ..).symm⟩
  obtain ⟨quiet, event, rest, rfl, hinterrupts⟩ :=
    exists_interrupts hrange hspares (Nat.le_trans hrange.patience_le hlines)
  rw [← applyAll_append] at hinterrupts
  refine ⟨quiet, event, rest, rfl, hinterrupts, ?_⟩
  rw [applyAll_append]
  exact intLatch_of_interrupts hinterrupts

/-- A snapshot with the greatest count there is. -/
theorem inRange_counting :
    Machine.Built { memory := some .k128 } { lower := .zeroed, upper := .zeroed } newMachine128 ∧
    Throughout TakesCount (newMachine128, #[]) [snapshot (Snapshot.save (counting 51))] := by
  refine ⟨built_newMachine128, (count_inRange_iff built_newMachine128 #[] _).1.mp fun before hbefore => ?_⟩
  obtain ⟨m', hload, hgateArray⟩ := load_counting 51
  rcases before with _ | ⟨event, before⟩
  · show newMachine128.board.gateArray.InRange
    rw [gateArray_built built_newMachine128]
    decide
  · obtain ⟨rfl, hrest⟩ := List.cons_prefix_cons.mp hbefore
    rw [List.prefix_nil.mp hrest, applyAll_snapshot hload, hgateArray]
    decide

/-- A snapshot with a greater one is taken as well. No line interrupts then, until the counter
overruns. -/
theorem counting_not_inRange :
    Machine.Built { memory := some .k128 } { lower := .zeroed, upper := .zeroed } newMachine128 ∧
    ∃ m', Snapshot.load (Snapshot.save (counting 63)) newMachine128 = .ok m' ∧
      (applyAll (newMachine128, #[]) [snapshot (Snapshot.save (counting 63))]).1 = m' ∧
      m'.board.gateArray.counter = 63 ∧ ¬m'.board.gateArray.InRange ∧
      (∀ lines ≤ 192, ((fun g : GateArray => g.hsyncEnds.1)^[lines] m'.board.gateArray).hsyncEnds.2 = false) ∧
      ((fun g : GateArray => g.hsyncEnds.1)^[193] m'.board.gateArray).overrun = true := by
  obtain ⟨m', hload, hgateArray⟩ := load_counting 63
  refine ⟨built_newMachine128, m', hload, applyAll_snapshot hload #[], ?_⟩
  rw [hgateArray]
  decide +kernel

end MachineEvent

end AmstradCpc
