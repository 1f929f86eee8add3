/-
What is recorded of a frame. The record of a line is filled from two sides: with the addresses
when the line begins, and with the colours when a sync pulse ends, which is for the line after the
one that is running. `Frame.recorded` reads the record at a line, wherever it wraps to, and then
there is one place in a frame where a line can get its addresses, and one line in which it can get
its colours (`addresses_atChar_zero`, `colours_atChar_succ`). Nothing is said of where the sync
pulse ends: the program may have it end anywhere, as often as it likes, or not at all.
-/
import Mathlib.Data.Nat.Find
import Mathlib.Data.Nat.ModEq
import AmstradCpc.Proofs.Machine.Beam

namespace AmstradCpc

/-! ## Addresses and colours -/

/-- What a line takes over from the display controller. -/
structure Addresses where
  address : UInt16
  row : UInt8
  displayed : Bool
  columns : UInt8
  syncPosition : UInt8
  deriving DecidableEq

/-- What a line takes over from the gate array: the mode, and the inks of the pens and of the
border. -/
structure Colours where
  mode : UInt8
  inks : Vector UInt8 17
  deriving DecidableEq

namespace Scanline

def addresses (line : Scanline) : Addresses :=
  ⟨line.address, line.row, line.displayed, line.columns, line.syncPosition⟩

def colours (line : Scanline) : Colours := ⟨line.mode, line.inks⟩

end Scanline

def Crtc.addresses (c : Crtc) : Addresses :=
  ⟨c.rowAddress, c.scanline, c.rowDisplayed, c.horizontalDisplayed, c.horizontalSyncPosition⟩

namespace GateArray

def colours (g : GateArray) : Colours := ⟨g.mode, g.inks⟩

/-- The end of a line is nothing to the colours. -/
theorem colours_hsyncEnds (g : GateArray) : g.hsyncEnds.1.colours = g.colours := by
  unfold hsyncEnds
  dsimp only
  split
  · rfl
  · split <;> rfl

end GateArray

namespace Frame

variable {f : Frame}

/-- What is recorded of a line. -/
def recorded (f : Frame) (i : Nat) : Scanline := f.record.get (f.slot i)

theorem recorded_modify (f : Frame) (j i : Nat) (change : Scanline → Scanline) :
    (f.modify j change).recorded i = if f.slot i = f.slot j then change (f.recorded i) else f.recorded i := by
  refine (Vector.getElem_set (f.slot j).isLt (f.slot i).isLt).trans ?_
  split
  next h =>
    have hslot : f.slot i = f.slot j := Fin.ext h.symm
    rw [if_pos hslot, recorded, hslot]
  next h =>
    rw [if_neg fun hslot => h (congrArg Fin.val hslot.symm)]
    rfl

theorem addresses_beginLine (f : Frame) (c : Crtc) (i : Nat) : ((f.beginLine c).recorded i).addresses =
    if f.slot i = f.slot f.index then c.addresses else (f.recorded i).addresses := by
  rw [beginLine, recorded_modify]
  split <;> rfl

theorem colours_beginLine (f : Frame) (c : Crtc) (i : Nat) :
    ((f.beginLine c).recorded i).colours = (f.recorded i).colours := by
  rw [beginLine, recorded_modify]
  split <;> rfl

theorem addresses_latchColours (f : Frame) (g : GateArray) (i : Nat) :
    ((f.latchColours g).recorded i).addresses = (f.recorded i).addresses := by
  rw [latchColours, recorded_modify]
  split <;> rfl

theorem colours_latchColours (f : Frame) (g : GateArray) (i : Nat) : ((f.latchColours g).recorded i).colours =
    if f.slot i = f.slot (f.index + 1) then g.colours else (f.recorded i).colours := by
  rw [latchColours, recorded_modify]
  split <;> rfl

theorem slot_eq_iff {i j : Nat} : f.slot i = f.slot j ↔ i ≡ j [MOD f.length] := by
  rw [Fin.ext_iff]
  rfl

/-- There is room for all lines of the frame. -/
theorem length_eq (hroom : f.lines ≤ recordedLines) {i : Nat} (hi : i < f.lines) : f.length = f.lines := by
  unfold length
  omega

theorem slot_eq_slot_iff (hroom : f.lines ≤ recordedLines) {i j : Nat} (hi : i < f.lines) (hj : j < f.lines) :
    f.slot i = f.slot j ↔ i = j := by
  rw [slot_eq_iff, length_eq hroom hi]
  refine ⟨fun h => Nat.ModEq.eq_of_lt_of_lt h hi hj, fun h => h ▸ rfl⟩

theorem slot_succ_eq_slot_succ_iff (hroom : f.lines ≤ recordedLines) {i j : Nat} (hi : i < f.lines)
    (hj : j < f.lines) : f.slot (i + 1) = f.slot (j + 1) ↔ i = j := by
  rw [← slot_eq_slot_iff hroom hi hj, slot_eq_iff, slot_eq_iff]
  exact ⟨Nat.ModEq.add_right_cancel' 1, fun h => h.add_right 1⟩

end Frame

namespace Machine

/-! ## The record in the time of a character -/

theorem colours_beamGateArray (m : Machine) :
    m.beamGateArray.hsyncEnds.1.colours = m.board.gateArray.colours := by
  rw [GateArray.colours_hsyncEnds, beamGateArray]
  split <;> rfl

theorem addresses_clockChar (m : Machine) (journal : Journal) (i : Nat) :
    ((m.clockChar journal).1.frame.recorded i).addresses = (m.frame.recorded i).addresses := by
  rw [frame_clockChar, clockBeam_eq]
  dsimp only
  split
  · rw [Frame.addresses_latchColours]
    split <;> rfl
  · split <;> rfl

theorem colours_clockChar (m : Machine) (journal : Journal) (i : Nat) :
    ((m.clockChar journal).1.frame.recorded i).colours =
      if m.board.crtc.hsyncFalls = true ∧ m.frame.slot i = m.frame.slot (m.frame.index + 1)
      then m.board.gateArray.colours else (m.frame.recorded i).colours := by
  rw [frame_clockChar, clockBeam_eq]
  dsimp only
  by_cases hfalls : m.board.crtc.hsyncFalls = true
  · rw [if_pos hfalls, Frame.colours_latchColours, colours_beamGateArray]
    simp only [hfalls, true_and]
    split <;> rfl
  · have hkept : ¬(m.board.crtc.hsyncFalls = true ∧ m.frame.slot i = m.frame.slot (m.frame.index + 1)) :=
      fun h => hfalls h.1
    rw [if_neg hfalls, if_neg hkept]
    split <;> rfl

/-! ## Places in a frame -/

/-- The machine when line `i` of its frame begins. -/
def atLine (m : Machine) (journal : Journal) (i : Nat) : Machine × Journal :=
  clockLines i { m with frame := { m.frame with index := 0 } } journal

/-- The machine when character `k` of the line begins; when the line ends, for the number of its
characters. -/
def atChar (m : Machine) (journal : Journal) (i k : Nat) : Machine × Journal :=
  let (m, journal) := m.atLine journal i
  clockChars k { m with frame := m.frame.beginLine m.board.crtc } journal

variable {m : Machine} {journal : Journal}

theorem clockChars_succ (n : Nat) (s : Machine × Journal) :
    clockChars (n + 1) s.1 s.2 = (clockChars n s.1 s.2).1.clockChar (clockChars n s.1 s.2).2 := by
  simp only [MachineEvent.clockChars_eq, Function.iterate_succ_apply']

theorem clockLines_succ (n : Nat) (s : Machine × Journal) :
    clockLines (n + 1) s.1 s.2 = (clockLines n s.1 s.2).1.clockLine (clockLines n s.1 s.2).2 := by
  simp only [MachineEvent.clockLines_eq, Function.iterate_succ_apply']

theorem atChar_succ (i k : Nat) : m.atChar journal i (k + 1) =
    (m.atChar journal i k).1.clockChar (m.atChar journal i k).2 :=
  clockChars_succ k (_, (m.atLine journal i).2)

/-- The next line begins where the line ends. -/
theorem atLine_succ (i : Nat) : m.atLine journal (i + 1) =
    ({ (m.atChar journal i charsPerLine).1 with
      frame := (m.atChar journal i charsPerLine).1.frame.endLine }, (m.atChar journal i charsPerLine).2) := by
  rw [atLine, clockLines_succ i ({ m with frame := { m.frame with index := 0 } }, journal), atChar, atLine,
    clockLine]

theorem recorded_atLine_succ (l i : Nat) : (m.atLine journal (l + 1)).1.frame.recorded i =
    (m.atChar journal l charsPerLine).1.frame.recorded i := by
  rw [atLine_succ]
  rcases m.atChar journal l charsPerLine with ⟨m', journal'⟩
  rfl

theorem lines_atLine (i : Nat) : (m.atLine journal i).1.frame.lines = m.frame.lines :=
  (place_clockLines i _ journal).1

theorem index_atLine (i : Nat) : (m.atLine journal i).1.frame.index = i :=
  (place_clockLines i _ journal).2.1.trans (Nat.zero_add i)

theorem lines_atChar (i k : Nat) : (m.atChar journal i k).1.frame.lines = m.frame.lines :=
  (samePlace_clockChars k _ _).lines.trans (lines_atLine i)

theorem index_atChar (i k : Nat) : (m.atChar journal i k).1.frame.index = i :=
  (samePlace_clockChars k _ _).index.trans (index_atLine i)

/-! ## The addresses of a line -/

variable {i l p : Nat}

/-- A line gets its addresses where it begins. -/
theorem addresses_atChar_zero (hroom : m.frame.lines ≤ recordedLines) (hi : i < m.frame.lines)
    (hl : l < m.frame.lines) : ((m.atChar journal l 0).1.frame.recorded i).addresses =
      if i = l then (m.atLine journal l).1.board.crtc.addresses
      else ((m.atLine journal l).1.frame.recorded i).addresses := by
  have hlines : (m.atLine journal l).1.frame.lines = m.frame.lines := lines_atLine l
  rw [← hlines] at hroom hi hl
  have hbegins := Frame.addresses_beginLine (m.atLine journal l).1.frame (m.atLine journal l).1.board.crtc i
  simp only [index_atLine, Frame.slot_eq_slot_iff hroom hi hl] at hbegins
  exact hbegins

theorem addresses_atChar (l k i : Nat) : ((m.atChar journal l k).1.frame.recorded i).addresses =
    ((m.atChar journal l 0).1.frame.recorded i).addresses := by
  induction k with
  | zero => rfl
  | succ k ih => rw [atChar_succ, addresses_clockChar, ih]

theorem addresses_atLine_succ (hroom : m.frame.lines ≤ recordedLines) (hi : i < m.frame.lines)
    (hl : l < m.frame.lines) : ((m.atLine journal (l + 1)).1.frame.recorded i).addresses =
      if i = l then (m.atLine journal l).1.board.crtc.addresses
      else ((m.atLine journal l).1.frame.recorded i).addresses := by
  rw [recorded_atLine_succ, addresses_atChar, addresses_atChar_zero hroom hi hl]

/-- It keeps them to the end of the frame. -/
theorem addresses_atLine_of_lt (hroom : m.frame.lines ≤ recordedLines) (hi : i < l) (hl : l ≤ m.frame.lines) :
    ((m.atLine journal l).1.frame.recorded i).addresses = (m.atLine journal i).1.board.crtc.addresses := by
  induction l, hi using Nat.le_induction with
  | base => rw [addresses_atLine_succ hroom hl hl, if_pos rfl]
  | succ l hi ih =>
    rw [addresses_atLine_succ hroom (Nat.lt_trans hi hl) hl, if_neg (Nat.ne_of_lt hi)]
    exact ih (Nat.le_of_lt hl)

/-! ## The colours of a line -/

/-- A sync pulse ends at the character. -/
def endsSync (m : Machine) (journal : Journal) (l k : Nat) : Bool :=
  (m.atChar journal l k).1.board.crtc.hsyncFalls

/-- It is the last one that ends in the line. -/
structure LastSync (m : Machine) (journal : Journal) (l k : Nat) : Prop where
  inside : k < charsPerLine
  ends : m.endsSync journal l k = true
  last : ∀ later, k < later → later < charsPerLine → m.endsSync journal l later = false

theorem exists_lastSync_or (m : Machine) (journal : Journal) (l : Nat) :
    (∃ k, m.LastSync journal l k) ∨ ∀ k < charsPerLine, m.endsSync journal l k = false := by
  by_cases h : ∀ k < charsPerLine, m.endsSync journal l k = false
  · exact .inr h
  · push Not at h
    obtain ⟨k, hk, hends⟩ := h
    have hends : m.endsSync journal l k = true := Bool.eq_true_of_not_eq_false hends
    have hlast : charsPerLine - 1 < charsPerLine := by decide
    refine .inl ⟨Nat.findGreatest (fun k => m.endsSync journal l k = true) (charsPerLine - 1), ?_, ?_, ?_⟩
    · exact Nat.lt_of_le_of_lt (Nat.findGreatest_le _) hlast
    · exact Nat.findGreatest_spec (Nat.le_sub_one_of_lt hk)
        (P := fun k => m.endsSync journal l k = true) hends
    · intro later hlater hinside
      exact Bool.eq_false_of_not_eq_true
        (Nat.findGreatest_is_greatest hlater (Nat.le_sub_one_of_lt hinside))

theorem colours_atChar_zero (l i : Nat) : ((m.atChar journal l 0).1.frame.recorded i).colours =
    ((m.atLine journal l).1.frame.recorded i).colours := Frame.colours_beginLine ..

/-- A line gets its colours where a sync pulse ends in the line before. -/
theorem colours_atChar_succ (hroom : m.frame.lines ≤ recordedLines) (hp : p < m.frame.lines)
    (hl : l < m.frame.lines) (k : Nat) : ((m.atChar journal l (k + 1)).1.frame.recorded (p + 1)).colours =
      if m.endsSync journal l k = true ∧ p = l then (m.atChar journal l k).1.board.gateArray.colours
      else ((m.atChar journal l k).1.frame.recorded (p + 1)).colours := by
  have hlines : (m.atChar journal l k).1.frame.lines = m.frame.lines := lines_atChar l k
  rw [← hlines] at hroom hp hl
  rw [atChar_succ, colours_clockChar]
  simp only [index_atChar, Frame.slot_succ_eq_slot_succ_iff hroom hp hl]
  rfl

/-- While no sync pulse ends, a line keeps its colours; in other lines than the one before it,
that need not be asked. -/
theorem colours_atChar_of_quiet (hroom : m.frame.lines ≤ recordedLines) (hp : p < m.frame.lines)
    (hl : l < m.frame.lines) {k n : Nat} (hk : k ≤ n)
    (hquiet : p = l → ∀ j, k ≤ j → j < n → m.endsSync journal l j = false) :
    ((m.atChar journal l n).1.frame.recorded (p + 1)).colours =
      ((m.atChar journal l k).1.frame.recorded (p + 1)).colours := by
  induction n, hk using Nat.le_induction with
  | base => rfl
  | succ n hk ih =>
    rw [colours_atChar_succ hroom hp hl, if_neg, ih fun hsame j hj hjn => hquiet hsame j hj (by omega)]
    rintro ⟨hends, hsame⟩
    rw [hquiet hsame n hk n.lt_succ_self] at hends
    cases hends

theorem colours_atLine_of_quiet (hroom : m.frame.lines ≤ recordedLines) (hp : p < m.frame.lines) {first : Nat}
    (hfirst : first ≤ l) (hl : l ≤ m.frame.lines)
    (hquiet : first ≤ p → p < l → ∀ k < charsPerLine, m.endsSync journal p k = false) :
    ((m.atLine journal l).1.frame.recorded (p + 1)).colours =
      ((m.atLine journal first).1.frame.recorded (p + 1)).colours := by
  induction l, hfirst using Nat.le_induction with
  | base => rfl
  | succ l hfirst ih =>
    have hline : p = l → ∀ k, 0 ≤ k → k < charsPerLine → m.endsSync journal l k = false := by
      rintro rfl k - hk
      exact hquiet hfirst p.lt_succ_self k hk
    rw [recorded_atLine_succ, colours_atChar_of_quiet hroom hp hl (Nat.zero_le _) hline, colours_atChar_zero]
    exact ih (Nat.le_of_lt hl) fun hp hpl => hquiet hp (Nat.lt_succ_of_lt hpl)

theorem recorded_clockFrame (m : Machine) (journal : Journal) (i : Nat) :
    (m.clockFrame journal).1.frame.recorded i = (m.atLine journal m.frame.lines).1.frame.recorded i := by
  rcases hafter : m.atLine journal m.frame.lines with ⟨m', journal'⟩
  rw [atLine] at hafter
  simp only [clockFrame, hafter]
  rfl

/-- The picture is painted from the record. -/
theorem pixels_clockFrame (m : Machine) (journal : Journal) :
    let after := (m.clockFrame journal).1
    after.frame.surface.pixels = after.frame.paintedPixels after.board.memory := by
  rcases hafter : m.atLine journal m.frame.lines with ⟨m', journal'⟩
  rw [atLine] at hafter
  simp only [clockFrame, hafter]
  rfl

/-- A line has the addresses that it got where it began, and the colours that it got where the
last sync pulse ended in the line before, at every place of the frame from there on. -/
theorem colours_of_lastSync (hroom : m.frame.lines ≤ recordedLines) (hp : p < m.frame.lines) {k : Nat}
    (hlast : m.LastSync journal p k) :
    (∀ l n, l < m.frame.lines → n ≤ charsPerLine → (l = p ∧ k < n ∨ p < l) →
      ((m.atChar journal l n).1.frame.recorded (p + 1)).colours =
        (m.atChar journal p k).1.board.gateArray.colours) ∧
    ∀ l, p < l → l ≤ m.frame.lines → ((m.atLine journal l).1.frame.recorded (p + 1)).colours =
        (m.atChar journal p k).1.board.gateArray.colours := by
  have hline {n : Nat} (hn : n ≤ charsPerLine) (hkn : k < n) :
      ((m.atChar journal p n).1.frame.recorded (p + 1)).colours =
        (m.atChar journal p k).1.board.gateArray.colours := by
    rw [colours_atChar_of_quiet hroom hp hp hkn fun _ j hj hjn => hlast.last j hj (by omega),
      colours_atChar_succ hroom hp hp, if_pos ⟨hlast.ends, rfl⟩]
  have hlines {l : Nat} (hpl : p < l) (hl : l ≤ m.frame.lines) :
      ((m.atLine journal l).1.frame.recorded (p + 1)).colours =
        (m.atChar journal p k).1.board.gateArray.colours := by
    rw [colours_atLine_of_quiet hroom hp hpl hl fun hfirst => absurd hfirst (Nat.not_le.mpr p.lt_succ_self),
      recorded_atLine_succ]
    exact hline Nat.le.refl hlast.inside
  refine ⟨fun l n hl hn hafter => ?_, fun l => hlines⟩
  rcases hafter with ⟨rfl, hkn⟩ | hpl
  · exact hline hn hkn
  · rw [colours_atChar_of_quiet hroom hp hl (Nat.zero_le n) fun hsame => absurd hsame (Nat.ne_of_lt hpl),
      colours_atChar_zero]
    exact hlines hpl (Nat.le_of_lt hl)

/-- If none ended there, it keeps those that it had before the frame. -/
theorem colours_of_no_sync (hroom : m.frame.lines ≤ recordedLines) (hp : p < m.frame.lines)
    (hquiet : ∀ k < charsPerLine, m.endsSync journal p k = false) (hl : l ≤ m.frame.lines) :
    ((m.atLine journal l).1.frame.recorded (p + 1)).colours = (m.frame.recorded (p + 1)).colours :=
  colours_atLine_of_quiet hroom hp (Nat.zero_le l) hl fun _ _ => hquiet

theorem crtc_built {c : Config} {roms : Roms} (h : Built c roms m) : m.board.crtc = {} := by
  obtain ⟨drives, rfl⟩ := h.onlyDrives
  rfl

/-- **What is recorded of a frame**, whatever the program does in it. Every machine has room for
the lines of its frames. Then after a frame the record of a line has the addresses that the
display controller had when the line began. It has the colours that the gate array had when the
last sync pulse ended in the line before, and from there on it had them to the end of the frame;
if none ended there, it has the colours that it had before the frame. The line after the last one
is the first one of the next frame. The picture is painted from the record. -/
theorem frame_records :
    (∀ c roms m journal events, Built c roms m →
      let lines := (MachineEvent.applyAll (m, journal) events).1.frame.lines
      lines = 312 ∨ lines = 262) ∧
    ∀ (m : Machine) (journal : Journal), m.frame.lines ≤ recordedLines →
      let after := (m.clockFrame journal).1
      (∀ i < m.frame.lines,
        (after.frame.recorded i).addresses = (m.atLine journal i).1.board.crtc.addresses) ∧
      (∀ i < m.frame.lines,
        (∃ k, m.LastSync journal i k ∧
          let settled := (m.atChar journal i k).1.board.gateArray.colours
          (after.frame.recorded (i + 1)).colours = settled ∧
          ∀ l n, l < m.frame.lines → n ≤ charsPerLine → (l = i ∧ k < n ∨ i < l) →
            ((m.atChar journal l n).1.frame.recorded (i + 1)).colours = settled) ∨
        (∀ k < charsPerLine, m.endsSync journal i k = false) ∧
          (after.frame.recorded (i + 1)).colours = (m.frame.recorded (i + 1)).colours) ∧
      after.frame.surface.pixels = after.frame.paintedPixels after.board.memory := by
  refine ⟨fun c roms m journal events hbuilt => ?_, fun m journal hroom => ⟨fun i hi => ?_, fun i hi => ?_, ?_⟩⟩
  · rw [MachineEvent.lines_applyAll]
    exact lines_built hbuilt
  · rw [recorded_clockFrame]
    exact addresses_atLine_of_lt hroom hi Nat.le.refl
  · rw [recorded_clockFrame]
    rcases exists_lastSync_or m journal i with ⟨k, hlast⟩ | hquiet
    · obtain ⟨hchars, hlines⟩ := colours_of_lastSync hroom hi hlast
      exact .inl ⟨k, hlast, hlines _ hi Nat.le.refl, hchars⟩
    · exact .inr ⟨hquiet, colours_of_no_sync hroom hi hquiet Nat.le.refl⟩
  · exact pixels_clockFrame m journal

/-- The first frame of a machine begins at the top of its picture, and line 1 has ink 0 for every
pen if no sync pulse ends before it. -/
theorem frame_records_newMachine128 :
    Snapshot.newMachine128.frame.lines ≤ recordedLines ∧
    ((Snapshot.newMachine128.clockFrame #[]).1.frame.recorded 0).addresses = ⟨0x3000, 0, true, 40, 46⟩ ∧
    ((∃ k, Snapshot.newMachine128.LastSync #[] 0 k ∧
      ((Snapshot.newMachine128.clockFrame #[]).1.frame.recorded 1).colours =
        (Snapshot.newMachine128.atChar #[] 0 k).1.board.gateArray.colours) ∨
      ((Snapshot.newMachine128.clockFrame #[]).1.frame.recorded 1).colours = ⟨0, .replicate 17 0⟩) := by
  have hlines : Snapshot.newMachine128.frame.lines = 312 := rfl
  have hroom : Snapshot.newMachine128.frame.lines ≤ recordedLines := by
    rw [hlines]
    exact Nat.le.refl
  obtain ⟨haddresses, hcolours, -⟩ := frame_records.2 Snapshot.newMachine128 #[] hroom
  refine ⟨hroom, ?_, ?_⟩
  · rw [haddresses 0 (by omega)]
    show Snapshot.newMachine128.board.crtc.addresses = _
    rw [crtc_built Snapshot.built_newMachine128]
    decide
  · rcases hcolours 0 (by omega) with ⟨k, hlast, hsettled, -⟩ | ⟨-, hkept⟩
    · exact .inl ⟨k, hlast, hsettled⟩
    · exact .inr hkept

end Machine

end AmstradCpc
