/-
The registers of the display controller and of the sound chip. Either chip takes each call as its table
of registers says, so whatever is done to it after a reset, a register holds those bits it has of
the last value that was stored in it (`registers_hold_last`). Clocks and reads store nothing, and
neither do writes where programs may not write, or where there is no register.
-/
import AmstradCpc.Proofs.Crtc.Reports
import AmstradCpc.Proofs.Psg.Ranges
import AmstradCpc.Proofs.Registers.LastStored
import AmstradCpc.Proofs.Word

namespace AmstradCpc

/-- A mask of the lowest bits takes the remainder. -/
theorem toNat_and_mask {v mask : UInt8} {width : Nat} (h : mask.toNat = 2 ^ width - 1) :
    (v &&& mask).toNat = v.toNat % 2 ^ width := by
  rw [UInt8.toNat_and, h, Nat.and_two_pow_sub_one_eq_mod]

/-- A row of a table that agrees with a list of registers, column by column. -/
theorem exists_row {α β : Type} {n : Nat} {table : Vector α n} {registers : List Register} {f : α → β}
    {g : Register → β} (h : table.toList.map f = registers.map g) {i : Nat} {r : Register}
    (hr : registers[i]? = some r) : ∃ hi : i < n, f table[i] = g r := by
  have hrow := congrArg (·[i]?) h
  simp only [List.getElem?_map, hr, Option.map_some] at hrow
  obtain ⟨a, ha, hfa⟩ := Option.map_eq_some_iff.mp hrow
  obtain ⟨hi, rfl⟩ := List.getElem?_eq_some_iff.mp ha
  exact ⟨by simpa using hi, by simpa using hfa⟩

theorem toNat_getD_initial {n : Nat} (values : Vector UInt8 n) {registers : List Register}
    (h : values.toList.map UInt8.toNat = registers.map fun r => r.initial) {i : Nat} {r : Register}
    (hr : registers[i]? = some r) (d : UInt8) : (values[i]?.getD d).toNat = r.initial := by
  obtain ⟨hi, hinitial⟩ := exists_row h hr
  rw [Vector.getElem?_eq_getElem hi, Option.getD_some, hinitial]

/-! ## The display controller -/

namespace Crtc

/-- The eighteen registers. The last two, the place of the light pen, can only be read. -/
def registerFile : RegisterFile where
  registers := [
    { width := 8, initial := 63 }, { width := 8, initial := 40 }, { width := 8, initial := 46 },
    { width := 8, initial := 0x8E }, { width := 7, initial := 38 }, { width := 5 },
    { width := 7, initial := 25 }, { width := 7, initial := 30 }, { width := 2 },
    { width := 5, initial := 7 }, { width := 7 }, { width := 5 },
    { width := 6, initial := 0x30 }, { width := 8 }, { width := 6 },
    { width := 8 }, { width := 6, writable := false }, { width := 8, writable := false }]
  selectionBits := 5

def Action.call : Action → RegisterCall
  | .clock => .other
  | .select v => .select v
  | .write v => .write v
  | .poke i v => .poke i v

theorem map_mask_registerTable : registerTable.toList.map (fun info => info.mask.toNat) =
    registerFile.registers.map fun r => 2 ^ r.width - 1 := by decide

theorem map_writable_registerTable : registerTable.toList.map (fun info => info.writable) =
    registerFile.registers.map fun r => r.writable := by decide

theorem map_initialRegisters :
    initialRegisters.toList.map UInt8.toNat = registerFile.registers.map fun r => r.initial := by decide

theorem toNat_peek_initial {i : Nat} {r : Register} (hr : registerFile.registers[i]? = some r) :
    (peek {} i).toNat = r.initial := toNat_getD_initial _ map_initialRegisters hr 0

theorem isWritable_eq (i : Nat) :
    registerFile.isWritable i = (registerTable[i]?.map fun info => info.writable).getD false := by
  rw [RegisterFile.isWritable, ← List.getElem?_map, ← map_writable_registerTable, List.getElem?_map,
    Vector.getElem?_toList]

theorem takes_poke (c : Crtc) (i : Nat) (v : UInt8) (selected : Nat) :
    registerFile.Takes selected (.poke i v) c.peek (c.poke i v).peek := by
  refine RegisterFile.takes_poke (fun hr => ?_) fun hne => peek_poke_other c hne v
  obtain ⟨hi, hmask⟩ := exists_row map_mask_registerTable hr
  rw [peek_poke_self c hi, toNat_and_mask hmask]

theorem write_eq (c : Crtc) (v : UInt8) : c.write v =
    if registerFile.isWritable c.address.toNat then c.poke c.address.toNat v else c := by
  rw [isWritable_eq, write]
  cases registerTable[c.address.toNat]? <;> rfl

theorem address_poke (c : Crtc) (i : Nat) (v : UInt8) : (c.poke i v).address = c.address := by
  unfold poke
  split <;> rfl

theorem address_perform (c : Crtc) (action : Action) :
    (c.perform action).address.toNat = registerFile.selecting c.address.toNat action.call := by
  cases action with
  | clock => exact congrArg UInt8.toNat c.address_clock
  | select v => exact toNat_and_mask rfl
  | write v =>
    rw [perform, write_eq]
    split
    · exact congrArg UInt8.toNat (c.address_poke _ v)
    · rfl
  | poke i v => exact congrArg UInt8.toNat (c.address_poke i v)

theorem takes_perform (c : Crtc) (action : Action) :
    registerFile.Takes c.address.toNat action.call c.peek (c.perform action).peek := by
  cases action with
  | clock =>
    have hpeek : c.clock.peek = c.peek := funext fun i => by rw [peek, registers_clock, peek]
    rw [perform, hpeek]
    exact RegisterFile.takes_other
  | select v => exact RegisterFile.takes_select v
  | write v =>
    rw [perform, write_eq]
    split
    next hwritable => exact (c.takes_poke _ v _).write hwritable
    next hrefused => exact RegisterFile.takes_write_refused (Bool.not_eq_true _ ▸ hrefused)
  | poke i v => exact c.takes_poke i v _

/-- Programs can read the last four registers. -/
theorem readable_iff : ∀ i < 32,
    (registerTable[i]?.map fun info => info.readable).getD false = true ↔ 14 ≤ i ∧ i ≤ 17 := by decide

theorem read_eq {c : Crtc} (h : c.address.toNat < 32) (floating : UInt8) : c.read floating =
    if 14 ≤ c.address.toNat ∧ c.address.toNat ≤ 17 then c.peek c.address.toNat else floating := by
  rw [← if_congr (readable_iff _ h) rfl rfl, read]
  cases registerTable[c.address.toNat]? <;> rfl

end Crtc

/-! ## The sound chip -/

namespace Psg

/-- The sixteen registers. A selection is kept whole, so it may be one of none of them. -/
def registerFile : RegisterFile where
  registers := [
    { width := 8 }, { width := 4 }, { width := 8 }, { width := 4 }, { width := 8 }, { width := 4 },
    { width := 5 }, { width := 8 }, { width := 5 }, { width := 5 }, { width := 5 }, { width := 8 },
    { width := 8 }, { width := 4 }, { width := 8 }, { width := 8 }]
  selectionBits := 8

def Access.call : Access → RegisterCall
  | .select register => .select register
  | .write v => .write v
  | .poke i v => .poke i v
  | .read | .clock => .other
  | .reset => .reset

theorem map_mask_registerTable : registerTable.toList.map (fun info => info.mask.toNat) =
    registerFile.registers.map fun r => 2 ^ r.width - 1 := by decide

theorem isWritable_iff (i : Nat) : registerFile.isWritable i = true ↔ i < 16 := by
  by_cases hi : i < 16
  · have hall : ∀ i < 16, registerFile.isWritable i = true := by decide
    exact iff_of_true (hall i hi) hi
  · have hnone : registerFile.registers[i]? = none := List.getElem?_eq_none (Nat.le_of_not_lt hi)
    simp [RegisterFile.isWritable, hnone, hi]

theorem peek_of_registers {p q : Psg} (h : q.registers = p.registers) : q.peek = p.peek :=
  funext fun i => by rw [peek, h, peek]

theorem takes_poke (p : Psg) (i : Nat) (v : UInt8) (selected : Nat) :
    registerFile.Takes selected (.poke i v) p.peek (p.poke i v).peek := by
  refine RegisterFile.takes_poke (fun hr => ?_) fun hne => peek_poke_other p hne v
  obtain ⟨hi, hmask⟩ := exists_row map_mask_registerTable hr
  rw [peek_poke_self p hi, toNat_and_mask hmask]

theorem toNat_peek_reset (p : Psg) {i : Nat} {r : Register} (hr : registerFile.registers[i]? = some r) :
    (p.reset.peek i).toNat = r.initial := toNat_getD_initial p.reset.registers rfl hr 0xFF

theorem write_eq_self {p : Psg} (h : 15 < p.selected.toNat) (v : UInt8) : p.write v = (p, none) := by
  have hpoke : p.poke p.selected.toNat v = p := by
    rw [poke_eq, Vector.setIfInBounds_eq_of_size_le (Nat.lt_of_lt_of_le (Nat.lt_succ_self 15) h)]
  rw [write, hpoke]
  split
  next hshape => simp [hshape] at h
  next hport => simp [hport] at h
  next hport => simp [hport] at h
  next => rfl

theorem selected_write (p : Psg) (v : UInt8) : (p.write v).1.selected = p.selected := by
  have hpoke : (p.poke p.selected.toNat v).selected = p.selected := by rw [poke_eq]
  simp only [write]
  split <;> exact hpoke

theorem selected_perform (p : Psg) (access : Access) :
    (p.perform access).selected.toNat = registerFile.selecting p.selected.toNat access.call := by
  cases access with
  | select v => exact (Nat.mod_eq_of_lt v.toNat_lt).symm
  | write v => exact congrArg UInt8.toNat (p.selected_write v)
  | poke i v => exact congrArg (·.selected.toNat) (poke_eq p i v)
  | read => rfl
  | reset => rfl
  | clock => exact congrArg UInt8.toNat p.selected_clock

theorem takes_perform (p : Psg) (access : Access) :
    registerFile.Takes p.selected.toNat access.call p.peek (p.perform access).peek := by
  cases access with
  | select v => exact RegisterFile.takes_select v
  | write v =>
    rw [perform]
    by_cases hregister : p.selected.toNat < 16
    · rw [peek_of_registers (p.registers_write v)]
      exact (p.takes_poke _ v _).write ((isWritable_iff _).mpr hregister)
    · rw [write_eq_self (by omega)]
      exact RegisterFile.takes_write_refused (Bool.not_eq_true _ ▸ mt (isWritable_iff _).mp hregister)
  | poke i v => exact p.takes_poke i v _
  | read => exact RegisterFile.takes_other
  | reset => exact RegisterFile.takes_reset p.toNat_peek_reset
  | clock =>
    rw [perform, peek_of_registers p.registers_clock]
    exact RegisterFile.takes_other

theorem read_eq (p : Psg) (level : Port → UInt8) : p.read level =
    if p.selected.toNat = 14 ∧ (p.peek 7).toNat.testBit 6 = false then level .a
    else if p.selected.toNat = 15 ∧ (p.peek 7).toNat.testBit 7 = false then level .b
    else p.peek p.selected.toNat := by
  have hmixer : p.peek 7 = p.mixer := by simp [peek, mixer]
  have ha : p.isOutput .a = (p.peek 7).toNat.testBit 6 := by
    rw [hmixer, isOutput, bitOf_eq_getLsbD _ (by decide)]
    rfl
  have hb : p.isOutput .b = (p.peek 7).toNat.testBit 7 := by
    rw [hmixer, isOutput, bitOf_eq_getLsbD _ (by decide)]
    rfl
  rw [read, ha, hb]
  split
  next hsel => cases (p.peek 7).toNat.testBit 6 <;> simp [hsel]
  next hsel => cases (p.peek 7).toNat.testBit 7 <;> simp [hsel]
  next ha hb =>
    rw [if_neg fun h => ha (UInt8.toNat_inj.mp h.1), if_neg fun h => hb (UInt8.toNat_inj.mp h.1)]

end Psg

/-! ## After any calls -/

/-- **A register holds the last value that was stored in it.** The display controller and the sound chip are
called in any way after a reset: registers are selected, written and poked, read, and clocks go by.
Then every register has those bits it keeps of the value that was last poked into it or written to it
while it was selected and programs may write it, and what it had after the reset if there is none. A
read of the display controller answers that value for the cursor and the light pen, and leaves the
bus as it is for all other selections. A write to the sound chip changes nothing if no register is
selected. A read answers that value, but for a port that the mixer register makes an input, which
answers the level of its pins. -/
theorem registers_hold_last :
    (∀ actions : List Crtc.Action,
      let c := actions.foldl Crtc.perform {}
      let calls := actions.map Crtc.Action.call
      let selected := Crtc.registerFile.selection calls
      Crtc.registerFile.Holds calls c.peek ∧
      ∀ floating, c.read floating = if 14 ≤ selected ∧ selected ≤ 17 then c.peek selected else floating) ∧
    ∀ (p : Psg) (accesses : List Psg.Access),
      let q := p.reset.performAll accesses
      let calls := accesses.map Psg.Access.call
      let selected := Psg.registerFile.selection calls
      Psg.registerFile.Holds calls q.peek ∧
      (15 < selected → ∀ v, q.write v = (q, none)) ∧
      ∀ level, q.read level =
        if selected = 14 ∧ (q.peek 7).toNat.testBit 6 = false then level .a
        else if selected = 15 ∧ (q.peek 7).toNat.testBit 7 = false then level .b
        else q.peek selected := by
  constructor
  · intro actions c calls selected
    obtain ⟨hselected, hholds⟩ :=
      RegisterFile.holds_run Crtc.address_perform Crtc.takes_perform rfl Crtc.toNat_peek_initial actions
    have hselected : c.address.toNat = selected := hselected
    refine ⟨hholds, fun floating => ?_⟩
    have hlt : selected < 32 := RegisterFile.selection_lt _ calls
    rw [← hselected] at hlt ⊢
    exact Crtc.read_eq hlt floating
  · intro p accesses q calls selected
    obtain ⟨hselected, hholds⟩ :=
      RegisterFile.holds_run Psg.selected_perform Psg.takes_perform rfl p.toNat_peek_reset accesses
    have hselected : q.selected.toNat = selected := hselected
    rw [← hselected]
    exact ⟨hholds, fun h v => Psg.write_eq_self h v, q.read_eq⟩

/-- The light pen is written to in vain. Of the cursor six bits are kept. -/
def cursorWritten : List Crtc.Action :=
  [.select 16, .write 0x3F, .select 0xEE, .write 0xC1, .clock, .poke 15 9]

/-- The upper half of a tone period keeps four bits; the second write goes nowhere. -/
def toneWritten : List Psg.Access := [.select 1, .write 0xAB, .select 200, .clock]

theorem registers_hold_last_written :
    let c := cursorWritten.foldl Crtc.perform {}
    let q := (Psg.initial 1000000 44100).reset.performAll toneWritten
    Crtc.registerFile.LastStored (cursorWritten.map Crtc.Action.call) 14 0xC1 ∧
      (∀ v, ¬Crtc.registerFile.LastStored (cursorWritten.map Crtc.Action.call) 16 v) ∧
      Psg.registerFile.LastStored (toneWritten.map Psg.Access.call) 1 0xAB ∧
      15 < Psg.registerFile.selection (toneWritten.map Psg.Access.call) ∧
      (c.peek 14).toNat = 1 ∧ (c.peek 16).toNat = 0 ∧ (c.read 0xFF).toNat = 1 ∧
      (q.peek 1).toNat = 0x0B ∧ q.write 0x55 = (q, none) := by
  intro c q
  have hcursor : Crtc.registerFile.LastStored (cursorWritten.map Crtc.Action.call) 14 0xC1 :=
    RegisterFile.lastStored_of_kept [.select 16, .write 0x3F, .select 0xEE] (.write 0xC1)
      [.other, .poke 15 9] ⟨by decide, by decide, rfl⟩ (by simp [RegisterFile.Replaces, RegisterFile.Stores])
  have hlightPen (v : UInt8) : ¬Crtc.registerFile.LastStored (cursorWritten.map Crtc.Action.call) 16 v := by
    have hrefused : Crtc.registerFile.isWritable 16 = false := by decide
    refine RegisterFile.not_lastStored ?_
    simp [cursorWritten, Crtc.Action.call, RegisterFile.Stores, hrefused]
  have htone : Psg.registerFile.LastStored (toneWritten.map Psg.Access.call) 1 0xAB :=
    RegisterFile.lastStored_of_kept [.select 1] (.write 0xAB) [.select 200, .other]
      ⟨by decide, by decide, rfl⟩ (by simp [RegisterFile.Replaces, RegisterFile.Stores])
  have hbeyond : 15 < Psg.registerFile.selection (toneWritten.map Psg.Access.call) := by decide
  obtain ⟨hcrtc, hread⟩ := registers_hold_last.1 cursorWritten
  obtain ⟨hpsg, hwrite, -⟩ := registers_hold_last.2 (Psg.initial 1000000 44100) toneWritten
  have hfourteen : (c.peek 14).toNat = 1 := hcrtc.stored (r := ⟨6, 0, true⟩) rfl hcursor
  refine ⟨hcursor, hlightPen, htone, hbeyond, hfourteen, hcrtc.untouched rfl hlightPen, ?_,
    hpsg.stored (r := ⟨4, 0, true⟩) rfl htone, hwrite hbeyond 0x55⟩
  exact (congrArg UInt8.toNat (hread 0xFF)).trans hfourteen

end AmstradCpc
