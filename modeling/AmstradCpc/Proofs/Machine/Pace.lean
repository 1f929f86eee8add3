/-
The pace of a frame. However long its instructions are, the processor gets four T-states for
every character, and what an instruction takes too much is taken from the time after it. So a
frame has a fixed number of clocks for every chip, and the T-states that are spent in it are known
but for what is owed before and after (`frame_accounts`).
-/
import AmstradCpc.Proofs.Cpu.Costs
import AmstradCpc.Proofs.Machine.Clocks
import AmstradCpc.Proofs.Machine.LineCounter

namespace AmstradCpc

open Machine (charStates charsPerLine clockChars clockLine clockLines clockFrame)

namespace MachineEvent

variable {s s' : Machine × Journal} {m : Machine} {journal : Journal}

/-! ## Rows of events -/

/-- The event comes when it should: the counter of lines has room, an instruction begins while time
is left, and time is granted and the sound chip is clocked when there is none. -/
def Due (s : Machine × Journal) : MachineEvent → Prop
  | beam => s.1.board.gateArray.counter ≤ 51
  | grant => s.1.cpu.budget.toInt ≤ 0
  | instruction => 0 < s.1.cpu.budget.toInt
  | sound => s.1.cpu.budget.toInt ≤ 0
  | _ => True

/-- What the processor works with. -/
def bench (s : Machine × Journal) : Cpu × Bench := (s.1.cpu, ⟨s.1.board, s.2⟩)

/-- The machine when the processor has done its work. -/
def withBench (s : Machine × Journal) (after : Cpu × Bench) : Machine × Journal :=
  ({ s.1 with cpu := after.1, board := after.2.board }, after.2.journal)

/-- The steps of a grant are instructions, each of them due. -/
theorem leads_of_spends {steps : Nat} {before after : Cpu × Bench} (h : Cpu.Spends steps before after)
    (hs : bench s = before) : Leads Due s (List.replicate steps instruction) (withBench s after) := by
  induction h generalizing s with
  | done hdone =>
    subst hs
    exact ⟨trivial, rfl⟩
  | step hpos _ ih =>
    subst hs
    exact .cons hpos (ih (rfl : bench (instruction.apply s) = _))

end MachineEvent

/-! ## What is kept account of -/

/-- The machine is at the beginning of a character: no time is left, and the counter of lines has
room. -/
structure Machine.Ready (m : Machine) : Prop where
  budget : m.cpu.budget.toInt ≤ 0
  counter : m.board.gateArray.counter ≤ 51

/-- The time of so many characters has gone by: what is gone from the budget has been spent, no time
is left, and the counter of lines has never overrun. -/
structure Machine.Pace (chars : Nat) (m m' : Machine) : Prop where
  budget : m'.cpu.budget.toInt ≤ 0
  overrun : -24 ≤ m.cpu.budget.toInt → -24 ≤ m'.cpu.budget.toInt
  spent : ∃ spent : Nat, m'.cpu.total = m.cpu.total.advance spent ∧
    spent + m'.cpu.budget.toInt = 4 * chars + m.cpu.budget.toInt
  counts : m'.board.gateArray.Counts m.board.gateArray.overrun

namespace Machine.Pace

variable {m m' m'' : Machine}

theorem refl (h : m.Ready) : Pace 0 m m := ⟨h.budget, id, ⟨0, by simp⟩, h.counter, rfl⟩

theorem ready {chars : Nat} (h : Pace chars m m') : m'.Ready := ⟨h.budget, h.counts.1⟩

theorem trans {chars more : Nat} (h : Pace chars m m') (h' : Pace more m' m'') : Pace (chars + more) m m'' := by
  obtain ⟨spent, htotal, hbalance⟩ := h.spent
  obtain ⟨spent', htotal', hbalance'⟩ := h'.spent
  refine ⟨h'.budget, fun hstart => h'.overrun (h.overrun hstart), ⟨spent + spent', ?_, by omega⟩,
    h'.counts.1, h'.counts.2.trans h.counts.2⟩
  rw [htotal', htotal, Ticks.advance_advance]

/-- What does not concern the processor and the gate array takes no time. -/
theorem congr {n n' : Machine} {chars : Nat} (h : Pace chars m m') (hcpu : n.cpu = m.cpu)
    (hgateArray : n.board.gateArray = m.board.gateArray) (hcpu' : n'.cpu = m'.cpu)
    (hgateArray' : n'.board.gateArray = m'.board.gateArray) : Pace chars n n' := by
  obtain ⟨hbudget, hoverrun, hspent, hcounts⟩ := h
  exact ⟨by rwa [hcpu'], by rwa [hcpu, hcpu'], by rwa [hcpu, hcpu'], by rwa [hgateArray, hgateArray']⟩

end Machine.Pace

namespace MachineEvent

variable {m : Machine}

theorem pace_clockBeam (h : m.Ready) : Machine.Pace 0 m m.clockBeam := by
  have hcounts : m.clockBeam.board.gateArray.Counts m.board.gateArray.overrun :=
    (GateArray.kept_counts _).clockBeam ⟨h.counter, rfl⟩
  have hcpu : m.clockBeam.cpu.budget = m.cpu.budget ∧ m.clockBeam.cpu.total = m.cpu.total := by
    rw [Machine.clockBeam_eq]
    show (if m.lineInterrupts then m.cpu.raiseInt else m.cpu).budget = _ ∧
      (if m.lineInterrupts then m.cpu.raiseInt else m.cpu).total = _
    split <;> exact ⟨rfl, rfl⟩
  refine ⟨?_, ?_, ⟨0, ?_⟩, hcounts⟩
  · rw [hcpu.1]
    exact h.budget
  · rw [hcpu.1]
    exact id
  · simp [hcpu.1, hcpu.2]

/-- A grant takes the time of a character. -/
theorem pace_grant {m' : Machine} {spent : Nat} {journal : Journal} {bench : Bench}
    (hspent : (m.cpu.grant charStates).Spent spent m'.cpu) (h : m.Ready)
    (hcycles : ∃ cycles, bench = Cycle.runAll (⟨m.board, journal⟩ : Bench) cycles)
    (hbench : m'.board.gateArray = bench.board.gateArray) : Machine.Pace 1 m m' := by
  obtain ⟨htotal, hbalance, hnonpos, howed, hoverrun⟩ := hspent
  obtain ⟨cycles, rfl⟩ := hcycles
  have hgranted : (m.cpu.grant charStates).budget.toInt = m.cpu.budget.toInt + 4 :=
    Cpu.toInt_budget_grant (by decide) h.budget
  have hcounts : (Cycle.runAll (⟨m.board, journal⟩ : Bench) cycles).board.gateArray.Counts
      m.board.gateArray.overrun :=
    (GateArray.kept_counts m.board.gateArray.overrun).runAll ⟨h.counter, rfl⟩ cycles
  refine ⟨hnonpos, fun hstart => ?_, ⟨spent, htotal, by omega⟩, by rwa [hbench]⟩
  by_cases hleft : 0 < (m.cpu.grant charStates).budget.toInt
  · exact hoverrun hleft
  · rw [howed (by omega), hgranted]
    omega

/-- The time of a character. -/
theorem pace_char (h : m.Ready) (journal : Journal) : Machine.Pace 1 m (m.clockChar journal).1 ∧
    ∃ steps, Leads Due (m, journal) (charEvents steps) (m.clockChar journal) := by
  have hbeam := pace_clockBeam h
  let begun : Machine × Journal := beam.apply (m, journal)
  obtain ⟨steps, hspends⟩ := begun.1.cpu.exists_spends_clock (bench begun).2 charStates
  have hsteps := leads_of_spends hspends (rfl : bench (grant.apply begun) = _)
  obtain ⟨spent, hspent⟩ := hspends.spent
  have hgrant : Machine.Pace 1 m.clockBeam (m.clockChar journal).1 :=
    pace_grant hspent hbeam.ready (Cpu.runBudget_onlyCycles _ (begun.1.cpu.grant charStates) (bench begun).2)
      rfl
  refine ⟨by simpa using hbeam.trans hgrant, steps, ?_⟩
  exact .cons h.counter (.cons hbeam.budget (hsteps.concat hspent.nonpos))

/-- Where no time is left and the counter has room, a frame is a row of due events. -/
theorem charRows_due : CharRows Due (fun s => s.1.Ready) where
  char s hready := by
    obtain ⟨hpace, hsteps⟩ := pace_char hready s.2
    exact ⟨hpace.ready, hsteps⟩
  frame _ _ _ h := ⟨h.budget, h.counter⟩
  marks _ := ⟨trivial, trivial, trivial, trivial⟩

theorem pace_chars (n : Nat) (h : m.Ready) (journal : Journal) :
    Machine.Pace n m (clockChars n m journal).1 := by
  induction n generalizing m journal with
  | zero => exact .refl h
  | succ n ih =>
    have hfirst := (pace_char h journal).1
    have hboth := hfirst.trans (ih hfirst.ready (m.clockChar journal).2)
    rwa [Nat.add_comm] at hboth

theorem pace_line (h : m.Ready) (journal : Journal) :
    Machine.Pace charsPerLine m (m.clockLine journal).1 := by
  have hbegun : { m with frame := m.frame.beginLine m.board.crtc }.Ready := ⟨h.budget, h.counter⟩
  have hpace := pace_chars charsPerLine hbegun journal
  rcases hafter : clockChars charsPerLine { m with frame := m.frame.beginLine m.board.crtc } journal with
    ⟨m', journal'⟩
  rw [hafter] at hpace
  simp only [clockLine, hafter]
  exact hpace.congr rfl rfl rfl rfl

theorem pace_lines (n : Nat) (h : m.Ready) (journal : Journal) :
    Machine.Pace (charsPerLine * n) m (clockLines n m journal).1 := by
  induction n generalizing m journal with
  | zero =>
    rw [Nat.mul_zero]
    exact .refl h
  | succ n ih =>
    have hfirst := pace_line h journal
    rcases hafter : m.clockLine journal with ⟨m', journal'⟩
    rw [hafter] at hfirst
    simp only [clockLines, hafter]
    rw [Nat.mul_succ, Nat.add_comm]
    exact hfirst.trans (ih hfirst.ready journal')

/-- A frame takes the time of 64 characters a line. -/
theorem pace_frame (h : m.Ready) (journal : Journal) :
    Machine.Pace (charsPerLine * m.frame.lines) m (m.clockFrame journal).1 := by
  have hbegun : { m with frame := { m.frame with index := 0 } }.Ready := ⟨h.budget, h.counter⟩
  have hpace := pace_lines m.frame.lines hbegun journal
  rcases hafter : clockLines m.frame.lines { m with frame := { m.frame with index := 0 } } journal with
    ⟨m', journal'⟩
  rw [hafter] at hpace
  simp only [clockFrame, hafter]
  exact hpace.congr rfl rfl rfl rfl

/-! ## What is clocked -/

theorem countP_charEvents (chip : Chip) (steps : Nat) :
    (charEvents steps).countP (·.clocks chip) = if chip = .fdc then 0 else 1 := by
  cases chip <;> simp [charEvents, clocks, List.countP_append, List.countP_replicate]

theorem countP_lineEvents (chip : Chip) (line : List Nat) :
    (lineEvents line).countP (·.clocks chip) = line.length * if chip = .fdc then 0 else 1 := by
  have hbegins : lineBegins.clocks chip = false := rfl
  have hends : lineEnds.clocks chip = false := rfl
  simp [lineEvents, List.countP_append, List.countP_flatMap, Function.comp_def, countP_charEvents, hbegins,
    hends]

/-- In a frame the display controller and the sound chip have a clock for each of its characters,
and the disk controller has one. -/
theorem countP_frameEvents (chip : Chip) {lines : List (List Nat)}
    (hlines : ∀ line ∈ lines, line.length = charsPerLine) :
    (frameEvents lines).countP (·.clocks chip) = if chip = .fdc then 1 else charsPerLine * lines.length := by
  have hsum : (lines.map List.length).sum = charsPerLine * lines.length := by
    rw [List.map_congr_left hlines]
    simp [Nat.mul_comm]
  have hbegins : frameBegins.clocks chip = false := rfl
  have hends : frameEnds.clocks chip = (chip == .fdc) := rfl
  simp only [frameEvents, List.countP_cons, List.countP_append, List.countP_flatMap, Function.comp_def,
    countP_lineEvents, hbegins, hends, List.countP_nil]
  by_cases hchip : chip = .fdc
  · simp [hchip]
  · simp [hchip, ← hsum]

theorem ticks_applyAll (s : Machine × Journal) {events : List MachineEvent}
    (h : ∀ event ∈ events, event.IsPart) :
    (applyAll s events).1.board.drives.controller.ticks =
      s.1.board.drives.controller.ticks + .ofNat (events.countP (·.clocks .fdc)) := by
  induction events generalizing s with
  | nil => exact (UInt64.add_zero _).symm
  | cons event events ih =>
    have hfirst := (clocked_apply s (h event (by simp))).fdc
    rw [applyAll_cons, ih _ fun other hother => h other (by simp [hother]), hfirst, List.countP_cons]
    split
    next hclocks =>
      show s.1.board.drives.controller.ticks + 1 + _ = _
      rw [UInt64.ofNat_add, UInt64.add_comm (.ofNat _), ← UInt64.add_assoc]
      rfl
    next => simp

end MachineEvent

/-! ## Frames -/

namespace Machine

/-- So many frames after a machine. What the host does in between leaves the processor, the gate
array and the length of a frame alone. -/
inductive Frames (first : Machine) : Nat → Machine → Prop where
  | start : Frames first 0 first
  | frame {k : Nat} {m : Machine} (journal : Journal) :
      Frames first k m → Frames first (k + 1) (m.clockFrame journal).1
  | between {k : Nat} {m m' : Machine} (hcpu : m'.cpu = m.cpu)
      (hgateArray : m'.board.gateArray = m.board.gateArray) (hlines : m'.frame.lines = m.frame.lines) :
      Frames first k m → Frames first k m'

/-- The machine has been built, or has just been reset. -/
def Starts (m : Machine) : Prop := (∃ c roms, Built c roms m) ∨ ∃ before : Machine, m = before.reset

theorem cpu_built {c : Config} {roms : Roms} {m : Machine} (h : Built c roms m) : m.cpu = .initial := by
  obtain ⟨drives, rfl⟩ := h.onlyDrives
  rfl

theorem Starts.budget {m : Machine} (h : m.Starts) : m.cpu.budget = 0 := by
  rcases h with ⟨c, roms, hbuilt⟩ | ⟨before, rfl⟩
  · rw [cpu_built hbuilt]
    rfl
  · rfl

theorem Starts.ready {m : Machine} (h : m.Starts) : m.Ready := by
  refine ⟨by rw [h.budget]; decide, ?_⟩
  rcases h with ⟨c, roms, hbuilt⟩ | ⟨before, rfl⟩
  · rw [MachineEvent.gateArray_built hbuilt]
    decide
  · exact (by decide : (0 : UInt8) ≤ 51)

theorem pace_frames {first last : Machine} {k : Nat} (h : first.Ready) (hframes : Frames first k last) :
    last.frame.lines = first.frame.lines ∧ Pace (charsPerLine * first.frame.lines * k) first last := by
  induction hframes with
  | start => exact ⟨rfl, .refl h⟩
  | @frame k m journal _ ih =>
    obtain ⟨hlines, hpace⟩ := ih
    have hframe := MachineEvent.pace_frame hpace.ready journal
    refine ⟨(place_clockFrame m journal).1.trans hlines, ?_⟩
    rw [hlines] at hframe
    rw [Nat.mul_succ]
    exact hpace.trans hframe
  | between hcpu hgateArray hsame _ ih =>
    exact ⟨hsame.trans ih.1, ih.2.congr rfl rfl hcpu hgateArray⟩

end Machine

/-- T-states that the processor has taken too much. -/
def Cpu.owed (cpu : Cpu) : Int := -cpu.budget.toInt

namespace MachineEvent

/-- **What a frame comes to**, whatever the program does. The counter of lines is not beyond its last
count, and the processor has no time left over. Then a frame is a row of events that come when
they should, with 64 clocks for each line for the display controller and the sound chip and one
for the disk controller, and no other event clocks any of them. The T-states that are spent are
256 for each line, and those that are owed at the end in place of those that were owed at the
beginning. So a machine that has run some frames since it was built or reset has spent 256
T-states for each of their lines, and up to 24 more. -/
theorem frame_accounts :
    (∀ (m : Machine) (journal : Journal), m.board.gateArray.counter ≤ 51 → m.cpu.budget.toInt ≤ 0 →
      let m' := (m.clockFrame journal).1
      (∃ lines : List (List Nat), lines.length = m.frame.lines ∧ (∀ line ∈ lines, line.length = charsPerLine) ∧
        applyAll (m, journal) (frameEvents lines) = m.clockFrame journal ∧
        Throughout Due (m, journal) (frameEvents lines) ∧
        ∀ chip, (frameEvents lines).countP (·.clocks chip) = if chip = .fdc then 1 else 64 * m.frame.lines) ∧
      m'.frame.index = m.frame.lines ∧ m'.frameCount = m.frameCount + 1 ∧
      m'.board.drives.controller.ticks = m.board.drives.controller.ticks + 1 ∧
      m'.board.gateArray.Counts m.board.gateArray.overrun ∧
      ∃ spent : Nat, m.cpu.total.Passed spent m'.cpu.total ∧
        spent = 256 * m.frame.lines + (m'.cpu.owed - m.cpu.owed)) ∧
    (∀ (s : Machine × Journal) (event : MachineEvent), event.IsPart →
      s.1.board.Clocked event.clocks (event.apply s).1.board) ∧
    (∀ c roms m, Machine.Built c roms m →
      m.cpu.total = .zero ∧ (m.frame.lines = 312 ∨ m.frame.lines = 262)) ∧
    ∀ (first last : Machine) (k : Nat), first.Starts → Machine.Frames first k last →
      ∃ spent owed : Nat, first.cpu.total.Passed spent last.cpu.total ∧ last.cpu.owed = owed ∧
        owed ≤ 24 ∧ spent = 256 * first.frame.lines * k + owed := by
  refine ⟨fun m journal hcounter hbudget => ?_, fun s event => clocked_apply s, fun c roms m hbuilt => ?_,
    fun first last k hstarts hframes => ?_⟩
  · have hready : m.Ready := ⟨hbudget, hcounter⟩
    have hpace := pace_frame hready journal
    obtain ⟨lines, hlength, hlines, hdue, happly⟩ := charRows_due.frameRow (s := (m, journal)) hready
    have hcounts (chip : Chip) := countP_frameEvents chip hlines
    have hparts : ∀ event ∈ frameEvents lines, event.IsPart := fun _ => isPart_of_mem_frameEvents
    have hticks := ticks_applyAll (m, journal) hparts
    obtain ⟨-, hindex, hcount⟩ := Machine.place_clockFrame m journal
    obtain ⟨spent, htotal, hbalance⟩ := hpace.spent
    rw [happly, hcounts .fdc] at hticks
    simp only [charsPerLine] at hbalance
    refine ⟨⟨lines, hlength, hlines, happly, hdue, fun chip => ?_⟩, hindex, hcount, hticks, hpace.counts,
      spent, Ticks.passed_of_eq htotal, ?_⟩
    · rw [hcounts chip, hlength]
      rfl
    · simp only [Cpu.owed]
      omega
  · rw [Machine.cpu_built hbuilt]
    exact ⟨rfl, Machine.lines_built hbuilt⟩
  · obtain ⟨-, hpace⟩ := Machine.pace_frames hstarts.ready hframes
    have hzero : first.cpu.budget.toInt = 0 := by
      rw [hstarts.budget]
      rfl
    have hoverrun := hpace.overrun (by omega)
    have hbudget := hpace.budget
    obtain ⟨spent, htotal, hbalance⟩ := hpace.spent
    obtain ⟨owed, howed⟩ := Int.eq_ofNat_of_zero_le (show 0 ≤ last.cpu.owed by simp only [Cpu.owed]; omega)
    refine ⟨spent, owed, Ticks.passed_of_eq htotal, howed, ?_, ?_⟩
    · simp only [Cpu.owed] at howed
      omega
    · simp only [Cpu.owed] at howed
      rw [hzero, charsPerLine, Nat.mul_assoc] at hbalance
      rw [Nat.mul_assoc]
      omega

/-- The first frame of a machine of 312 lines. -/
theorem frame_accounts_newMachine128 :
    Snapshot.newMachine128.board.gateArray.counter ≤ 51 ∧ Snapshot.newMachine128.cpu.budget.toInt ≤ 0 ∧
    (Snapshot.newMachine128.clockFrame #[]).1.frame.index = 312 ∧
    ∃ owed ≤ 24, (Snapshot.newMachine128.clockFrame #[]).1.cpu.total.count.toNat = 79872 + owed := by
  obtain ⟨hframe, -, hbuilt, hframes⟩ := frame_accounts
  have hstarts : Snapshot.newMachine128.Starts := .inl ⟨_, _, Snapshot.built_newMachine128⟩
  have hready := hstarts.ready
  have hlines : Snapshot.newMachine128.frame.lines = 312 := rfl
  obtain ⟨-, hindex, -⟩ := hframe _ #[] hready.counter hready.budget
  obtain ⟨spent, owed, hpassed, -, howed, hspent⟩ := hframes _ _ 1 hstarts (.frame #[] .start)
  rw [(hbuilt _ _ _ Snapshot.built_newMachine128).1] at hpassed
  rw [hlines] at hspent hindex
  have hroom : Ticks.zero.canAdvance spent = true := decide_eq_true (show 0 + spent < 2 ^ 64 by omega)
  have hcount : _ = 0 + spent := hpassed.count hroom
  exact ⟨hready.counter, hready.budget, hindex, owed, howed, by omega⟩

end MachineEvent

end AmstradCpc
