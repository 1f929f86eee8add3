/-
What the display controller reports of its two sync signals. A clock reports the edges of both, the
vertical one first, and the machine passes them on in this order. Whatever is written to the
registers between two clocks, the reports on a signal go up and down in turn, and the last one
says where the signal stands (`reports_consistent`).
-/
import AmstradCpc.Machine
import AmstradCpc.Proofs.Crtc.Clock

namespace AmstradCpc

/-- Passes on an edge of one of the signals. -/
def Machine.passOn (m : Machine) : Sync × Crtc.Edge → Machine
  | (.horizontal, edge) => m.hsyncEdge edge
  | (.vertical, edge) => m.vsyncEdge edge

namespace Crtc

/-- What a clock reports, in this order. -/
def reports (c : Crtc) : List (Sync × Edge) :=
  ((Edge.between c.vsync c.clock.vsync).map (Sync.vertical, ·)).toList ++
    ((Edge.between c.hsync c.clock.hsync).map (Sync.horizontal, ·)).toList

/-- One call that is made to the controller. -/
inductive Action where
  | clock
  | select (v : UInt8)
  | write (v : UInt8)
  | poke (i : Nat) (v : UInt8)

def perform (c : Crtc) : Action → Crtc
  | .clock => c.clock
  | .select v => c.select v
  | .write v => c.write v
  | .poke i v => c.poke i v

/-- Only a clock reports anything. -/
def reported (c : Crtc) : Action → List (Sync × Edge)
  | .clock => c.reports
  | .select _ | .write _ | .poke _ _ => []

/-- A controller, and all that it has reported so far. -/
structure Record where
  crtc : Crtc := {}
  reports : List (Sync × Edge) := []

def Record.perform (r : Record) (action : Action) : Record :=
  ⟨r.crtc.perform action, r.reports ++ r.crtc.reported action⟩

/-- The edges of one signal among the reports. -/
def edgesOf (s : Sync) (reports : List (Sync × Edge)) : List Edge :=
  reports.filterMap fun (of, edge) => if of = s then some edge else none

/-- The edge numbered `i` of a signal that goes up and down in turn, and is down at first. -/
def turn (i : Nat) : Edge := if i % 2 = 0 then .rising else .falling

/-! ## One clock -/

theorem edgesOf_append (s : Sync) (first second : List (Sync × Edge)) :
    edgesOf s (first ++ second) = edgesOf s first ++ edgesOf s second := List.filterMap_append

theorem edgesOf_reports (c : Crtc) (s : Sync) :
    edgesOf s c.reports = (Edge.between (c.sync s) (c.clock.sync s)).toList := by
  have hself (e : Option Edge) : edgesOf s (e.map (s, ·)).toList = e.toList := by
    cases e <;> simp [edgesOf]
  have hother (of : Sync) (hne : of ≠ s) (e : Option Edge) : edgesOf s (e.map (of, ·)).toList = [] := by
    cases e <;> simp [edgesOf, hne]
  rw [reports, edgesOf_append]
  cases s with
  | horizontal =>
    rw [hother .vertical (by simp), hself]
    rfl
  | vertical =>
    rw [hself, hother .horizontal (by simp), List.append_nil]
    rfl

theorem mem_reports_iff {c : Crtc} {s : Sync} {edge : Edge} :
    (s, edge) ∈ c.reports ↔ Edge.between (c.sync s) (c.clock.sync s) = some edge := by
  cases s <;> simp [reports, sync]

/-- There is at most one report on either signal. -/
theorem reports_sublist (c : Crtc) :
    ∃ v h, c.reports.Sublist [(Sync.vertical, v), (Sync.horizontal, h)] := by
  have hone (s : Sync) (e : Option Edge) : ∃ edge, (e.map (s, ·)).toList.Sublist [(s, edge)] := by
    cases e with
    | none => exact ⟨.rising, List.nil_sublist _⟩
    | some edge => exact ⟨edge, List.Sublist.refl _⟩
  obtain ⟨v, hv⟩ := hone .vertical (Edge.between c.vsync c.clock.vsync)
  obtain ⟨h, hh⟩ := hone .horizontal (Edge.between c.hsync c.clock.hsync)
  exact ⟨v, h, hv.append hh⟩

theorem clockBeam_passOn (m : Machine) : m.clockBeam = m.board.crtc.reports.foldl Machine.passOn
    { m with board := { m.board with crtc := m.board.crtc.clock } } := by
  simp only [Machine.clockBeam, reports, List.foldl_append]
  cases Edge.between m.board.crtc.vsync m.board.crtc.clock.vsync <;>
    cases Edge.between m.board.crtc.hsync m.board.crtc.clock.hsync <;> rfl

/-! ## Any calls -/

theorem pulse_poke (c : Crtc) (i : Nat) (v : UInt8) (s : Sync) : (c.poke i v).pulse s = c.pulse s := by
  unfold poke
  cases s <;> split <;> rfl

theorem pulse_write (c : Crtc) (v : UInt8) (s : Sync) : (c.write v).pulse s = c.pulse s := by
  unfold write
  split
  · split
    · exact pulse_poke ..
    · rfl
  · rfl

/-- The pulses as they are, and what was reported of them. -/
structure Consistent (r : Record) : Prop where
  counted : ∀ s, (r.crtc.pulse s).Counted
  narrow : ∀ s, (r.crtc.pulse s).left.toNat ≤ 16
  inTurn : ∀ s, ∃ n, edgesOf s r.reports = (List.range n).map turn ∧ r.crtc.sync s = decide (n % 2 = 1)

theorem sync_eq_up (c : Crtc) (s : Sync) : c.sync s = (c.pulse s).up := by cases s <;> rfl

/-- What leaves the pulses alone, and is not reported. -/
theorem Consistent.of_pulse {r : Record} (h : Consistent r) {c : Crtc}
    (hpulse : ∀ s, c.pulse s = r.crtc.pulse s) : Consistent ⟨c, r.reports ++ []⟩ := by
  refine ⟨fun s => ?_, fun s => ?_, fun s => ?_⟩
  · rw [hpulse]
    exact h.counted s
  · rw [hpulse]
    exact h.narrow s
  · rw [List.append_nil, sync_eq_up, hpulse, ← sync_eq_up]
    exact h.inTurn s

theorem Consistent.clock {r : Record} (h : Consistent r) :
    Consistent ⟨r.crtc.clock, r.reports ++ r.crtc.reports⟩ := by
  refine ⟨fun s => (counted_clock (h.counted s)).1, fun s => ?_, fun s => ?_⟩
  · have hnarrow := h.narrow s
    rw [(counted_clock (h.counted s)).2]
    split
    · exact (r.crtc.pulseWidth_bounds s).2
    · omega
  · obtain ⟨n, hedges, hlevel⟩ := h.inTurn s
    rw [edgesOf_append, edgesOf_reports, hedges, hlevel]
    -- An edge is reported exactly if the level changes, and it is the one whose turn it is.
    obtain heven | hodd := Nat.mod_two_eq_zero_or_one n
    · cases hnext : r.crtc.clock.sync s with
      | false => exact ⟨n, by simp [heven, Edge.between], by simp [heven]⟩
      | true => exact ⟨n + 1, by simp [heven, Edge.between, List.range_succ, turn], by simp; omega⟩
    · cases hnext : r.crtc.clock.sync s with
      | false => exact ⟨n + 1, by simp [hodd, Edge.between, List.range_succ, turn], by simp; omega⟩
      | true => exact ⟨n, by simp [hodd, Edge.between], by simp [hodd]⟩

theorem Consistent.perform {r : Record} (h : Consistent r) (action : Action) :
    Consistent (r.perform action) := by
  cases action with
  | clock => exact h.clock
  | select v => exact h.of_pulse fun s => by cases s <;> rfl
  | write v => exact h.of_pulse (r.crtc.pulse_write v)
  | poke i v => exact h.of_pulse (r.crtc.pulse_poke i v)

theorem consistent_performAll (actions : List Action) {r : Record} (h : Consistent r) :
    Consistent (actions.foldl Record.perform r) := by
  induction actions generalizing r with
  | nil => exact h
  | cons action actions ih => exact ih (h.perform action)

theorem consistent_initial : Consistent {} := by
  refine ⟨fun s => ?_, fun s => ?_, fun s => ⟨0, rfl, ?_⟩⟩ <;> cases s <;> simp [Pulse.Counted, pulse, sync]

theorem getLast?_inTurn (n : Nat) :
    (((List.range n).map turn).getLast? == some .rising) = decide (n % 2 = 1) := by
  cases n with
  | zero => rfl
  | succ n =>
    rw [List.range_succ, List.map_append, List.map_singleton, List.getLast?_concat]
    obtain heven | hodd := Nat.mod_two_eq_zero_or_one n
    · have hnext : (n + 1) % 2 = 1 := by omega
      simp [turn, heven, hnext]
    · have hnext : (n + 1) % 2 = 0 := by omega
      simp only [turn, hodd, hnext]
      rfl

/-- **The sync signals and what is reported of them.** A new controller is clocked, and its registers are
selected and written, in any order. Then each signal is up exactly as long as something is left of
its pulse, which is at most sixteen. The reports on each signal so far are a rising edge,
a falling one, and so on in turn, and the signal is where the last of them says, or down if there
is none. The next clock reports at most one edge of each signal, the vertical one first, and these
are what a machine passes on, in this order. -/
theorem reports_consistent (actions : List Action) :
    let r := actions.foldl Record.perform {}
    ((r.crtc.hsync = true ↔ 0 < r.crtc.hsyncCounter) ∧ (r.crtc.vsync = true ↔ 0 < r.crtc.vsyncCounter)) ∧
    (r.crtc.hsyncCounter ≤ 16 ∧ r.crtc.vsyncCounter ≤ 16) ∧
    (∀ s, let edges := edgesOf s r.reports
      (∀ i (h : i < edges.length), edges[i] = turn i) ∧
      r.crtc.sync s = (edges.getLast? == some .rising)) ∧
    (∃ v h, r.crtc.reports.Sublist [(.vertical, v), (.horizontal, h)]) ∧
    ∀ m : Machine, m.clockBeam = m.board.crtc.reports.foldl Machine.passOn
      { m with board := { m.board with crtc := m.board.crtc.clock } } := by
  intro r
  have h : Consistent r := consistent_performAll actions consistent_initial
  refine ⟨⟨?_, ?_⟩, ⟨?_, ?_⟩, fun s => ?_, r.crtc.reports_sublist, clockBeam_passOn⟩
  · rw [UInt8.lt_iff_toNat_lt]
    exact h.counted .horizontal
  · rw [UInt8.lt_iff_toNat_lt]
    exact h.counted .vertical
  · exact UInt8.le_iff_toNat_le.mpr (h.narrow .horizontal)
  · exact UInt8.le_iff_toNat_le.mpr (h.narrow .vertical)
  · obtain ⟨n, hedges, hlevel⟩ := h.inTurn s
    intro edges
    have hedges : edges = (List.range n).map turn := hedges
    refine ⟨fun i hi => ?_, ?_⟩
    · simp [hedges]
    · rw [hlevel, hedges, getLast?_inTurn]

end Crtc

end AmstradCpc
