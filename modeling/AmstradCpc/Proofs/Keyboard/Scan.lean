/-
How a program reads the keyboard. A line of keys is behind a port of the sound chip, which is
behind a port of the parallel interface, so that reading it takes six writes and a read
(`scan`). `runAll_scan` follows the writes from any board there may be before: the first takes
both chips out of whatever they were in the middle of, and only what that asks of the sound chip
is left of it. What is then read is, key by key, the last thing that was done to the key
(`isPressed_setKeys`).
-/
import AmstradCpc.Proofs.Board.Wires
import AmstradCpc.Proofs.Word

namespace AmstradCpc

/-! ## Places of keys -/

namespace Key

theorem index_ofNat : ∀ i < 80, (Key.ofNat i).index = i := by decide

theorem index_injective {key other : Key} (h : key.index = other.index) : key = other := by
  rw [← Key.ofNat_ctorIdx key, ← Key.ofNat_ctorIdx other]
  exact congrArg Key.ofNat h

theorem toNat_bit (key : Key) : key.bit.toNat = key.index % 8 := by
  have h : key.index % 8 < 8 := Nat.mod_lt _ (by decide)
  simp only [bit, Nat.toUInt8_eq, UInt8.toNat_ofNat']
  omega

theorem bit_lt (key : Key) : key.bit < 8 := by
  rw [UInt8.lt_iff_toNat_lt, toNat_bit]
  exact Nat.mod_lt _ (by decide)

theorem eq_of_place {key other : Key} (hline : key.line = other.line) (hbit : key.bit = other.bit) :
    key = other := by
  have hbit := congrArg UInt8.toNat hbit
  rw [toNat_bit, toNat_bit] at hbit
  simp only [line] at hline
  exact index_injective (by omega)

/-- There is one key at each place of the matrix. -/
theorem exists_at {line : Nat} {n : UInt8} (hline : line < 10) (hn : n < 8) :
    ∃ key : Key, ∀ other : Key, (other.line = line ∧ other.bit = n) ↔ other = key := by
  have hn : n.toNat < 8 := UInt8.lt_iff_toNat_lt.1 hn
  have hindex := index_ofNat (8 * line + n.toNat) (by omega)
  have hplace : (Key.ofNat (8 * line + n.toNat)).line = line := by
    simp only [Key.line, hindex]
    omega
  have hbit : (Key.ofNat (8 * line + n.toNat)).bit = n := by
    apply UInt8.toNat_inj.1
    rw [toNat_bit, hindex]
    omega
  refine ⟨Key.ofNat (8 * line + n.toNat), fun other => ⟨?_, ?_⟩⟩
  · rintro ⟨hl, hb⟩
    exact eq_of_place (hl.trans hplace.symm) (hb.trans hbit.symm)
  · rintro rfl
    exact ⟨hplace, hbit⟩

end Key

/-! ## Keys that are pressed and released -/

/-- The last thing that was done to the key was to press it. -/
def HeldAfter (events : List (Key × Bool)) (key : Key) : Prop :=
  ∃ before after, events = before ++ (key, true) :: after ∧ ∀ event ∈ after, event.1 ≠ key

theorem not_heldAfter_nil (key : Key) : ¬HeldAfter [] key := by
  rintro ⟨before, after, h, -⟩
  simp at h

theorem heldAfter_concat {events : List (Key × Bool)} {event : Key × Bool} {key : Key} :
    HeldAfter (events ++ [event]) key ↔ if key = event.1 then event.2 = true else HeldAfter events key := by
  constructor
  · rintro ⟨before, after, h, hafter⟩
    rcases concat_eq_append_cons_iff.1 h with ⟨rfl, rfl, rfl⟩ | ⟨after, rfl, rfl⟩
    · simp
    · have hother : key ≠ event.1 := fun h => hafter event (by simp) h.symm
      rw [if_neg hother]
      exact ⟨before, after, rfl, fun e he => hafter e (by simp [he])⟩
  · intro h
    split at h
    next hsame =>
      exact ⟨events, [], by rw [hsame, ← h], by simp⟩
    next hother =>
      obtain ⟨before, after, rfl, hafter⟩ := h
      refine ⟨before, after ++ [event], by simp, fun e he => ?_⟩
      rcases List.mem_append.1 he with he | he
      · exact hafter e he
      · obtain rfl := List.mem_singleton.1 he
        exact fun h => hother h.symm

namespace Keyboard

/-- Presses and releases keys, one after the other. -/
def setKeys (kb : Keyboard) (events : List (Key × Bool)) : Keyboard :=
  events.foldl (fun kb (key, down) => kb.setKey key down) kb

theorem setKeys_concat (kb : Keyboard) (events : List (Key × Bool)) (event : Key × Bool) :
    kb.setKeys (events ++ [event]) = (kb.setKeys events).setKey event.1 event.2 := by
  simp [setKeys]

theorem isPressed_eq (kb : Keyboard) (key : Key) (h : key.line < 10) :
    kb.isPressed key = bitOf kb.pressed[key.line] key.bit := rfl

theorem pressed_setKey (kb : Keyboard) (key : Key) (down : Bool) (h : key.line < 10) :
    (kb.setKey key down).pressed = kb.pressed.set key.line
      (if down then kb.pressed[key.line] ||| bitIf true key.bit
        else kb.pressed[key.line] &&& ~~~bitIf true key.bit) := rfl

/-- Keys that share a line are told apart by their bits. -/
theorem isPressed_setKey (kb : Keyboard) (key other : Key) (down : Bool) :
    (kb.setKey key down).isPressed other = if other = key then down else kb.isPressed other := by
  have hkey := key.line_lt
  have hother := other.line_lt
  have hbit := other.bit_lt
  rw [isPressed_eq _ _ hother, isPressed_eq _ _ hother]
  simp only [pressed_setKey _ _ _ hkey, Vector.getElem_set]
  by_cases hline : key.line = other.line
  · have hsame : other = key ↔ other.bit = key.bit := ⟨fun h => h ▸ rfl, Key.eq_of_place hline.symm⟩
    have hmask := bitOf_bitIf _ hbit _ key.bit_lt
    cases down <;> simp only [hline, hsame, hmask, bitOf_or _ _ hbit, bitOf_and _ _ hbit,
      bitOf_not _ hbit, if_true, Bool.false_eq_true, if_false] <;>
      by_cases h : other.bit = key.bit <;> simp [h]
  · have hne : other ≠ key := fun h => hline (h ▸ rfl)
    simp [hline, hne]

theorem isPressed_setKeys (events : List (Key × Bool)) (key : Key) :
    (({} : Keyboard).setKeys events).isPressed key = true ↔ HeldAfter events key := by
  induction events using List.reverseRecOn with
  | nil =>
    have hnone : ({} : Keyboard).isPressed key = false := by cases key <;> rfl
    simp [setKeys, hnone, not_heldAfter_nil]
  | append_singleton events event ih =>
    rw [setKeys_concat, isPressed_setKey, heldAfter_concat]
    split
    · rfl
    · exact ih

/-- A pressed key is a zero. -/
theorem bitOf_read (kb : Keyboard) {line : UInt8} {key : Key} (h : key.line = line.toNat) :
    bitOf (kb.read line) key.bit = !kb.isPressed key := by
  have hline := key.line_lt
  have hkeys : kb.read line = ~~~kb.pressed.get ⟨key.line, hline⟩ := by
    have hline : line.toNat < 10 := h ▸ hline
    simp [read, Vector.get, h, hline]
  rw [hkeys, bitOf_not _ key.bit_lt, isPressed]

theorem read_of_le (kb : Keyboard) {line : UInt8} (h : 10 ≤ line) : kb.read line = 0xFF := by
  have h : 10 ≤ line.toNat := UInt8.le_iff_toNat_le.1 h
  simp [read, h]

end Keyboard

/-! ## The way to the keys -/

/-- Has register 14 of the sound chip read, which is the port that the keys are on, with a line of
keys selected. The parallel interface sends the number of the register out of its first port,
which is turned round after that. -/
def scan (line : UInt8) : List Cycle :=
  [.output 0xF782 0x82, .output 0xF400 0x0E, .output 0xF600 0xC0, .output 0xF600 0x00,
    .output 0xF792 0x92, .output 0xF600 (0x40 + line)]

theorem Ppi.write_c (p : Ppi) (v : UInt8) :
    p.write 2 v = ({ p with portC := v }, [(.c, v &&& p.portCOutputs)]) := rfl

theorem Ppi.read_a {p : Ppi} (h : p.portAIsInput = true) (levels : Port → UInt8) :
    p.read levels 0 = levels .a := if_pos h

namespace Psg

theorem mixer_poke (p : Psg) (i : Nat) (v : UInt8) :
    (p.poke i v).mixer = if i = 7 then v else p.mixer := by
  have hmask : v &&& 0xFF = v := UInt8.and_neg_one
  by_cases hi : i < 16
  · by_cases h : i = 7
    · subst h
      simp [poke, mixer, registerTable, hmask]
    · simp [poke, mixer, hi, h]
  · have h : i ≠ 7 := by omega
    simp [poke, mixer, hi, h]

theorem mixer_write (p : Psg) (v : UInt8) :
    (p.write v).1.mixer = if p.selected = 7 then v else p.mixer := by
  have hpoke : (p.write v).1.mixer = (p.poke p.selected.toNat v).mixer := by
    simp only [write]
    split <;> rfl
  have hselected : p.selected.toNat = 7 ↔ p.selected = 7 := UInt8.toNat_inj (b := 7)
  rw [hpoke, mixer_poke]
  simp only [hselected]

end Psg

namespace Peripherals

/-- A byte without the bit leaves the first port of the sound chip an input, whatever is asked. -/
theorem mixer_drivePsg {p : Peripherals} (h : bitOf p.psg.mixer 6 = false)
    (hdata : bitOf p.psgData 6 = false) : bitOf p.drivePsg.psg.mixer 6 = false := by
  unfold drivePsg
  split
  · rw [Psg.mixer_write]
    split <;> assumption
  · exact h
  · exact h
  · exact h

theorem line_of_request : ∀ line < 16,
    (0x40 + line) &&& 0xFF = 0x40 + line ∧ (0x40 + line) &&& 0x0F = line ∧
      bitOf (0x40 + line) 4 = false ∧ bitOf (0x40 + line) 5 = false ∧
      PsgFunction.ofBits ((0x40 + line) >>> 6) = .read := by decide +kernel

/-- Of what the sound chip was asked for before, it does one thing more, with a zero. After that
the scan is all there is. -/
theorem driveAll_scan (p : Peripherals) {line : UInt8} (hline : line < 16) :
    p.driveAll [(.a, 0), (.c, 0), (.a, 0x0E), (.c, 0xC0), (.c, 0), (.c, 0), (.c, 0x40 + line)] =
      { p with
        psg := (p.drive .a 0).psg.select 0x0E
        keyboard := { p.keyboard with line }
        psgData := 0x0E
        psgFunction := .read
        tapeMotor := false
        tapeWrite := false } := by
  obtain ⟨-, hselect, hmotor, hwrite, hread⟩ := line_of_request line hline
  have hfirst : p.drive .a 0 = { p with psgData := 0, psg := (p.drive .a 0).psg } := drivePsg_eq _
  have hthen : p.driveAll [(.a, 0), (.c, 0), (.a, 0x0E), (.c, 0xC0), (.c, 0), (.c, 0)] =
      { p with
        psg := (p.drive .a 0).psg.select 0x0E
        keyboard := { p.keyboard with line := 0 }
        psgData := 0x0E
        psgFunction := .inactive
        tapeMotor := false
        tapeWrite := false } := by
    simp only [driveAll, List.foldl_cons]
    rw [hfirst]
    rfl
  show (p.driveAll [(.a, 0), (.c, 0), (.a, 0x0E), (.c, 0xC0), (.c, 0), (.c, 0)]).drive .c (0x40 + line) = _
  simp only [hthen, drive, hselect, hmotor, hwrite, hread, drivePsg]

/-- What the sound chip reads while its first port is an input. -/
theorem level_of_input {p : Peripherals} (hread : p.psgFunction = .read) (hselected : p.psg.selected = 14)
    (hmixer : bitOf p.psg.mixer 6 = false) : p.level .a = p.keyboard.selected := by
  have hinput : p.psg.isOutput .a = false := hmixer
  simp [level, hread, Psg.read, hselected, hinput, psgLevel]

end Peripherals

namespace Board

/-- The parallel interface, and what it has put on its ports one after the other. -/
def driven (b : Board) (ppi : Ppi) (writes : List (Ppi.Port × UInt8)) : Board :=
  { b with ppi, peripherals := b.peripherals.driveAll writes }

/-- The port addresses at which the parallel interface alone is selected. -/
def reachesPpiOnly (port : UInt16) : Bool :=
  !low port 15 && !low port 14 && !low port 13 && !low port 12 && low port 11 && !low port 10

theorem output_driven {b : Board} {ppi ppi' : Ppi} {writes more : List (Ppi.Port × UInt8)}
    {port : UInt16} {v : UInt8} (hport : reachesPpiOnly port = true)
    (hwrite : ppi.write (register port) v = (ppi', more)) :
    (b.driven ppi writes).output port v = b.driven ppi' (writes ++ more) := by
  simp only [reachesPpiOnly, Bool.and_eq_true, Bool.not_eq_true'] at hport
  simp [output, selectsDrives, hport, writePpi, driven, hwrite, Peripherals.driveAll]

theorem input_of_ppi (b : Board) {port : UInt16} (h : reachesPpiOnly port = true)
    (hport : register port ≠ 3) :
    b.input port = (b.ppi.read b.peripherals.level (register port), b) := by
  simp only [reachesPpiOnly, Bool.and_eq_true, Bool.not_eq_true'] at h
  simp [input, selectsDrives, h, hport]

end Board

theorem runAll_scan (bench : Bench) {line : UInt8} (hline : line < 16) :
    (Cycle.runAll bench (scan line)).board =
      bench.board.driven { portC := 0x40 + line, control := 0x92 }
        [(.a, 0), (.c, 0), (.a, 0x0E), (.c, 0xC0), (.c, 0), (.c, 0), (.c, 0x40 + line)] := by
  obtain ⟨hdriven, -⟩ := Peripherals.line_of_request line hline
  have hmode : bench.board.ppi.write (Board.register 0xF782) 0x82 =
      ({ control := 0x82 }, [(.a, 0), (.c, 0)]) := rfl
  have hnumber : ({ control := 0x82 } : Ppi).write (Board.register 0xF400) 0x0E =
      ({ portA := 0x0E, control := 0x82 }, [(.a, 0x0E)]) := by decide
  have hselect : ({ portA := 0x0E, control := 0x82 } : Ppi).write (Board.register 0xF600) 0xC0 =
      ({ portA := 0x0E, portC := 0xC0, control := 0x82 }, [(.c, 0xC0)]) := by decide
  have hinactive : ({ portA := 0x0E, portC := 0xC0, control := 0x82 } : Ppi).write (Board.register 0xF600) 0 =
      ({ portA := 0x0E, control := 0x82 }, [(.c, 0)]) := by decide
  have hturn : ({ portA := 0x0E, control := 0x82 } : Ppi).write (Board.register 0xF792) 0x92 =
      ({ control := 0x92 }, [(.c, 0)]) := by decide
  have houtputs : ({ control := 0x92 } : Ppi).portCOutputs = 0xFF := by decide
  have hread : ({ control := 0x92 } : Ppi).write 2 (0x40 + line) =
      ({ portC := 0x40 + line, control := 0x92 }, [(.c, 0x40 + line)]) := by
    rw [Ppi.write_c, houtputs, hdriven]
  show ((((((bench.board.driven bench.board.ppi []).output 0xF782 0x82).output 0xF400 0x0E).output
    0xF600 0xC0).output 0xF600 0x00).output 0xF792 0x92).output 0xF600 (0x40 + line) = _
  rw [Board.output_driven (by decide) hmode, Board.output_driven (by decide) hnumber,
    Board.output_driven (by decide) hselect, Board.output_driven (by decide) hinactive,
    Board.output_driven (by decide) hturn, Board.output_driven (by decide) hread]
  rfl

/-- The byte that is read in the end is that of the line which was selected. -/
theorem input_runAll_scan (bench : Bench) {line : UInt8} (hline : line < 16)
    (hinput : bitOf bench.board.peripherals.psg.mixer 6 = false) :
    (Cycle.runAll bench (scan line)).board.input 0xF400 =
      (bench.board.peripherals.keyboard.read line, (Cycle.runAll bench (scan line)).board) := by
  have hregister : Board.register 0xF400 = 0 := by decide
  have hzero : bitOf 0 6 = false := by decide
  have hmixer : bitOf (bench.board.peripherals.drive .a 0).psg.mixer 6 = false :=
    Peripherals.mixer_drivePsg hinput hzero
  have hturned : ({ portC := 0x40 + line, control := 0x92 } : Ppi).portAIsInput = true := by
    show (0x92 &&& 0x10 != (0 : UInt8)) = true
    decide
  rw [Board.input_of_ppi _ (by decide) (by decide), runAll_scan bench hline, hregister]
  simp only [Board.driven, Peripherals.driveAll_scan _ hline, Ppi.read_a hturned]
  exact congrArg (·, _) (Peripherals.level_of_input rfl rfl hmixer)

/-- **A scan of the keyboard finds what was done to the keys.** From whatever the chips are in the
middle of, as long as the first port of the sound chip is an input, the byte that is read for a
line has a zero for each of its eight keys whose last event was a press, and is all ones
where there is no such line. The keys are as they were, and so is all that the scan does not go
through: memory and the map of it, gate array, display controller and drives. -/
theorem scan_finds_keys (events : List (Key × Bool)) (line : UInt8) (bench : Bench) (hline : line < 16)
    (hkeys : bench.board.peripherals.keyboard.pressed = (({} : Keyboard).setKeys events).pressed)
    (hinput : bitOf bench.board.peripherals.psg.mixer 6 = false) :
    ∃ v after, (Cycle.input 0xF400).run (Cycle.runAll bench (scan line)) = (some v, after) ∧
      (line < 10 → ∀ n < 8, ∃ key : Key,
        (∀ other : Key, (other.line = line.toNat ∧ other.bit = n) ↔ other = key) ∧
        (bitOf v n = false ↔ HeldAfter events key)) ∧
      (10 ≤ line → v = 0xFF) ∧
      after.board.peripherals.keyboard.pressed = bench.board.peripherals.keyboard.pressed ∧
      after.board.memory = bench.board.memory ∧
      after.board.pager = bench.board.pager ∧
      after.board.gateArray = bench.board.gateArray ∧
      after.board.crtc = bench.board.crtc ∧
      after.board.drives = bench.board.drives := by
  have hscan := runAll_scan bench hline
  have hperipherals := Peripherals.driveAll_scan bench.board.peripherals hline
  have hread := input_runAll_scan bench hline hinput
  refine ⟨bench.board.peripherals.keyboard.read line, _,
    Prod.ext (congrArg some (congrArg Prod.fst hread)) rfl, ?_, ?_, ?_⟩
  · intro hexists n hn
    obtain ⟨key, hkey⟩ := Key.exists_at (UInt8.lt_iff_toNat_lt.1 hexists) hn
    obtain ⟨hline, rfl⟩ := (hkey key).2 rfl
    refine ⟨key, hkey, ?_⟩
    rw [Keyboard.bitOf_read _ hline, Bool.not_eq_false', ← Keyboard.isPressed_setKeys events,
      Keyboard.isPressed, Keyboard.isPressed, hkeys]
  · exact Keyboard.read_of_le _
  · have hafter : ((Cycle.input 0xF400).run (Cycle.runAll bench (scan line))).2.board =
        (Cycle.runAll bench (scan line)).board := congrArg Prod.snd hread
    rw [hafter, hscan]
    exact ⟨congrArg (·.keyboard.pressed) hperipherals, rfl, rfl, rfl, rfl, rfl⟩

/-- `a` is held down, and its neighbour has been let go. The sound chip is being asked to write a
register that it does not have. -/
def typing : List (Key × Bool) := [(.a, true), (.tab, true), (.q, true), (.tab, false)]

def typingBench : Bench :=
  let b := Board.initial (.initial 4 .zeroed .zeroed) {} true
  ⟨{ b with peripherals := { b.peripherals with
      psg := b.peripherals.psg.select 0x80
      keyboard := ({} : Keyboard).setKeys typing
      psgFunction := .write } }, #[]⟩

theorem typing_found :
    typingBench.board.peripherals.keyboard.pressed = (({} : Keyboard).setKeys typing).pressed ∧
    bitOf typingBench.board.peripherals.psg.mixer 6 = false ∧
    ∃ v after, (Cycle.input 0xF400).run (Cycle.runAll typingBench (scan 8)) = (some v, after) ∧
      bitOf v 5 = false ∧ bitOf v 4 = true ∧
      after.board.peripherals.keyboard.pressed = typingBench.board.peripherals.keyboard.pressed := by
  have hkeys : typingBench.board.peripherals.keyboard.pressed =
      (({} : Keyboard).setKeys typing).pressed := rfl
  have hinput : bitOf typingBench.board.peripherals.psg.mixer 6 = false := by decide
  obtain ⟨v, after, hread, hline, -, hpressed, -⟩ :=
    scan_finds_keys typing 8 typingBench (by decide) hkeys hinput
  obtain ⟨key, hkey, ha⟩ := hline (by decide) 5 (by decide)
  obtain rfl : Key.a = key := (hkey .a).1 (by decide)
  obtain ⟨other, hother, htab⟩ := hline (by decide) 4 (by decide)
  obtain rfl : Key.tab = other := (hother .tab).1 (by decide)
  refine ⟨hkeys, hinput, v, after, hread, ha.2 ?_, Bool.eq_true_of_not_eq_false fun h => ?_, hpressed⟩
  · exact ⟨[], [(.tab, true), (.q, true), (.tab, false)], rfl, by decide⟩
  · have hheld := Keyboard.isPressed_setKeys typing .tab
    exact absurd (hheld.2 (htab.1 h)) (by decide)

end AmstradCpc
