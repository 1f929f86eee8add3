/-
The handshake over the data register. In every state that a controller comes to
from power-on, by any run of actions, what its phase holds fits the phase: a
command under way is short of bytes, data to be read out is there, data to be
taken in is wanted, and a result has a byte left. So a command is carried out
with all of its parameters, and an access that the main status register does not
ask for changes nothing.
-/
import AmstradCpc.Proofs.Fdc.Action

namespace AmstradCpc.Fdc

/-- What a phase holds fits the phase. A sector of no bytes is complete with the
first byte that comes. -/
def Phase.Coherent : Phase → Prop
  | .idle => True
  | .command received => ∃ first rest, received = first :: rest ∧
      received.length < (Command.ofByte first).length
  | .reading data next outcome => next < data.size ∧ outcome ≠ []
  | .writing t received => received.size < max 1 t.sectorLength
  | .formatting _ count _ received => received.length < 4 * count.toNat
  | .result left => left ≠ []

/-- The bytes of a command that have come, in the phases that wait for one. -/
def Phase.collected : Phase → Option (List UInt8)
  | .idle => some []
  | .command received => some received
  | .reading .. | .writing .. | .formatting .. | .result _ => none

/-- Bit 6 of the main status register: the data register is to be read. -/
def wantsRead (f : Fdc) : Bool := f.mainStatus &&& 0x40 != 0

theorem wantsRead_eq (f : Fdc) : f.wantsRead = match f.phase with
    | .reading .. | .result _ => true
    | .idle | .command _ | .writing .. | .formatting .. => false := by
  simp only [wantsRead, mainStatus]
  cases f.phase <;> dsimp only <;> decide

/-! ## Carrying out a command -/

theorem Transfer.result_ne_nil (t : Transfer) (status0 status1 status2 : UInt8) :
    t.result status0 status1 status2 ≠ [] := by simp [Transfer.result]

theorem coherent_enterResult (f : Fdc) {bytes : List UInt8} (h : bytes ≠ []) :
    (f.enterResult bytes).phase.Coherent := h

theorem coherent_startRead (f : Fdc) {data : ByteArray} {outcome : List UInt8} (h : outcome ≠ []) :
    (f.startRead data outcome).phase.Coherent := by
  unfold startRead
  split
  · exact h
  · next hne =>
    refine ⟨?_, h⟩
    simp only [ByteArray.isEmpty, beq_iff_eq] at hne
    omega

theorem coherent_beginWrite (f : Fdc) (t : Transfer) : (f.beginWrite t).phase.Coherent := by
  simp only [beginWrite]
  split
  · show ByteArray.empty.size < max 1 t.sectorLength
    rw [ByteArray.size_empty]
    omega
  · exact coherent_enterResult _ (t.result_ne_nil _ _ _)

theorem coherent_commitSector (f : Fdc) (t : Transfer) (data : ByteArray) :
    (f.commitSector t data).phase.Coherent := by
  simp only [commitSector]
  split
  · exact coherent_enterResult _ (t.result_ne_nil _ _ _)
  · split
    · exact coherent_enterResult _ (t.result_ne_nil _ _ _)
    · exact coherent_beginWrite ..

theorem coherent_commitFormat (f : Fdc) (select : Select) (filler : UInt8) (received : List UInt8) :
    (f.commitFormat select filler received).phase.Coherent :=
  coherent_enterResult _ (by simp)

theorem coherent_formatTrack (f : Fdc) (select : Select) (sizeCode count filler : UInt8) :
    (f.formatTrack select sizeCode count filler).phase.Coherent := by
  unfold formatTrack
  split
  · split
    · exact coherent_commitFormat f select filler []
    · next hne =>
      show 0 < 4 * count.toNat
      have : count.toNat ≠ 0 := fun h => hne (UInt8.toNat_inj.mp h)
      omega
  · exact coherent_enterResult _ (by simp)

/-- Whatever the phase was in which a command is carried out, and whatever the
drives hold, the controller is left in a phase that fits. -/
theorem coherent_run (f : Fdc) (request : Request) : (f.run request).phase.Coherent := by
  cases request with
  | specify => exact trivial
  | senseDrive select => exact coherent_enterResult _ (by simp)
  | seek select cylinder => exact trivial
  | senseInterrupt =>
    simp only [run, senseInterrupt]
    split <;> exact coherent_enterResult _ (by simp)
  | read t =>
    simp only [run, readSectors]
    split
    · exact coherent_startRead _ (Transfer.result_ne_nil _ _ _ _)
    · exact coherent_enterResult _ (t.result_ne_nil _ _ _)
  | readTrack t =>
    simp only [run, readTrack]
    split
    · split
      · exact coherent_enterResult _ (t.result_ne_nil _ _ _)
      · exact coherent_startRead _ (t.result_ne_nil _ _ _)
    · exact coherent_enterResult _ (t.result_ne_nil _ _ _)
  | write t =>
    simp only [run, writeSectors]
    split
    · exact coherent_beginWrite ..
    · exact coherent_enterResult _ (t.result_ne_nil _ _ _)
  | readId select =>
    simp only [run, readId]
    split
    · split <;> exact coherent_enterResult _ (by simp)
    · exact coherent_enterResult _ (by simp)
  | format select sizeCode count filler => exact coherent_formatTrack ..
  | version | invalid => exact coherent_enterResult _ (by simp)

/-! ## The accesses -/

/-- A command of its full length has all of its parameters: it stands for no
command only if its first byte does. -/
theorem Request.ofBytes_eq_invalid {first : UInt8} {rest : List UInt8}
    (h : (first :: rest).length = (Command.ofByte first).length) :
    Request.ofBytes (first :: rest) = .invalid ↔ Command.ofByte first = .invalid := by
  simp only [Request.ofBytes]
  generalize Command.ofByte first = command at h
  cases command with
  | specify | senseInterruptStatus | version | invalid => simp
  | senseDriveStatus | recalibrate | readId =>
    match rest, h with
    | [_], _ => simp
  | seek =>
    match rest, h with
    | [_, _], _ => simp
  | formatTrack =>
    match rest, h with
    | [_, _, _, _, _], _ => simp
  | readTrack | writeData | readData | writeDeletedData | readDeletedData =>
    match rest, h with
    | [_, _, _, _, _, _, _, _], _ => simp

/-- A byte that comes while a command is waited for is kept if the command is
still short, and completes the command otherwise: never more than its length. -/
theorem write_collected {f : Fdc} {received : List UInt8} (h : f.phase.Coherent)
    (hc : f.phase.collected = some received) (v : UInt8) :
    let bytes := received ++ [v]
    let command := Command.ofByte (bytes.headD v)
    (bytes.length < command.length ∧ f.write v = { f with phase := .command bytes }) ∨
      (bytes.length = command.length ∧ f.write v = f.run (.ofBytes bytes) ∧
        (Request.ofBytes bytes = .invalid ↔ command = .invalid)) := by
  intro bytes command
  -- A command that is not complete has fewer bytes than its length; so has none at all.
  have hlt : received.length < command.length ∧ f.write v = f.receiveCommand received v := by
    cases hp : f.phase with
    | idle =>
      simp only [hp, Phase.collected, Option.some.injEq] at hc
      subst hc
      exact ⟨Command.length_pos _, by simp only [write, hp]⟩
    | command taken =>
      simp only [hp, Phase.collected, Option.some.injEq] at hc
      subst hc
      simp only [hp, Phase.Coherent] at h
      obtain ⟨first, rest, rfl, hlt⟩ := h
      exact ⟨hlt, by simp only [write, hp]⟩
    | reading | writing | formatting | result => simp [hp, Phase.collected] at hc
  obtain ⟨hlt, hw⟩ := hlt
  have hlen : bytes.length = received.length + 1 := by simp [bytes]
  by_cases hfull : command.length ≤ bytes.length
  · refine .inr ⟨by omega, ?_, ?_⟩
    · rw [hw, receiveCommand, if_pos hfull]
    · obtain ⟨first, rest, he⟩ : ∃ first rest, bytes = first :: rest :=
        List.exists_cons_of_length_pos (by omega)
      have hcommand : command = Command.ofByte first := by simp [command, he]
      rw [he, hcommand]
      exact Request.ofBytes_eq_invalid (by rw [← he, ← hcommand]; omega)
  · exact .inl ⟨by omega, by rw [hw, receiveCommand, if_neg hfull]⟩

/-- After the last byte of the data come those of the result. -/
theorem read_of_reading {f : Fdc} {data : ByteArray} {next : Nat} {outcome : List UInt8}
    (hp : f.phase = .reading data next outcome) :
    f.read.2 = if data.size ≤ next + 1 then f.enterResult outcome
      else { f with phase := .reading data (next + 1) outcome } := by
  rw [read, hp]

/-- A read that is not asked for gives 0xFF and changes nothing. -/
theorem read_of_not_wantsRead {f : Fdc} (hr : f.wantsRead = false) : f.read = (0xFF, f) := by
  cases hp : f.phase with
  | reading | result => simp [wantsRead_eq, hp] at hr
  | idle | command | writing | formatting => simp only [read, hp]

/-- A byte that is written while a read is asked for is lost. -/
theorem write_of_wantsRead {f : Fdc} (hr : f.wantsRead = true) (v : UInt8) : f.write v = f := by
  cases hp : f.phase with
  | reading | result => simp only [write, hp]
  | idle | command | writing | formatting => simp [wantsRead_eq, hp] at hr

/-! ## Every state that a run comes to -/

theorem coherent_command {bytes : List UInt8} {v : UInt8} (hne : bytes ≠ [])
    (h : bytes.length < (Command.ofByte (bytes.headD v)).length) : (Phase.command bytes).Coherent := by
  obtain ⟨first, rest, rfl⟩ := List.exists_cons_of_ne_nil hne
  exact ⟨first, rest, rfl, h⟩

theorem coherent_write {f : Fdc} (h : f.phase.Coherent) (v : UInt8) : (f.write v).phase.Coherent := by
  cases hp : f.phase with
  | idle | command =>
    rcases write_collected h (by rw [hp, Phase.collected]) v with ⟨hlt, hw⟩ | ⟨-, hw, -⟩
    · rw [hw]
      exact coherent_command (by simp) hlt
    · rw [hw]
      exact coherent_run ..
  | reading | result =>
    rw [write_of_wantsRead (by simp [wantsRead_eq, hp])]
    exact h
  | writing t received =>
    simp only [write, hp]
    split
    · exact coherent_commitSector ..
    · show (received.push v).size < max 1 t.sectorLength
      omega
  | formatting select count filler received =>
    simp only [write, hp]
    split
    · exact coherent_commitFormat f select filler _
    · show (received ++ [v]).length < 4 * count.toNat
      omega

theorem coherent_read {f : Fdc} (h : f.phase.Coherent) : f.read.2.phase.Coherent := by
  cases hp : f.phase with
  | reading data next outcome =>
    simp only [hp, Phase.Coherent] at h
    rw [read_of_reading hp]
    split
    · exact coherent_enterResult _ h.2
    · exact ⟨by omega, h.2⟩
  | result left =>
    rcases left with - | ⟨v, - | ⟨w, rest⟩⟩
    · simp [read, hp, Phase.Coherent]
    · simp [read, hp, Phase.Coherent]
    · simp only [read, hp]
      exact coherent_enterResult _ (by simp)
  | idle | command | writing | formatting =>
    rw [read_of_not_wantsRead (by simp [wantsRead_eq, hp])]
    exact h

theorem coherent_perform {f : Fdc} (h : f.phase.Coherent) (a : Action) : (f.perform a).phase.Coherent := by
  cases a with
  | write v => exact coherent_write h v
  | read => exact coherent_read h
  | reset => exact trivial
  | setMotor | clock | attach | detach | insert | eject | setCylinder =>
    rw [phase_perform (by simp) (by simp) (by simp)]
    exact h

/-- The phase is coherent after every run of actions from power-on. -/
theorem coherent_performAll (actions : List Action) : (initial.performAll actions).phase.Coherent :=
  performAll_keeps (P := fun _ => True) (I := fun f => f.phase.Coherent)
    (fun _ a hf _ => coherent_perform hf a) actions trivial fun a _ => a.brings_true

end AmstradCpc.Fdc
