/-
The fields of the controller agree. Nothing in the controller's buffers ties the
phase to the command, the execution and the result that belong to it, and every
function sets them on its own; still, after any run of actions from power-on,
they are those of one phase. So the controller with its buffers and the
controller whose phase holds its data are one: no command lacks a parameter, the
two give the same bytes and the same main status, and none of the fall-backs for
fields that do not fit is ever reached.
-/
import AmstradCpc.Fdc.Buffered
import AmstradCpc.Proofs.Fdc.Handshake

namespace AmstradCpc.Fdc

/-- The buffers show the controller `f`: its drives are the same, and for its
phase the fields that belong to the phase hold what the phase holds. -/
inductive Buffered.Shows (c : Buffered) : Fdc → Prop where
  | idle (hp : c.phase = .idle) (he : c.execution = .none) : Shows c (c.inPhase .idle)
  | command (hp : c.phase = .command) (he : c.execution = .none)
      (hl : ∀ v, c.commandLength = (Command.ofByte (c.command.headD v)).length) :
      Shows c (c.inPhase (.command c.command))
  | reading {data : ByteArray} {pos : Nat} {outcome : List UInt8} (hp : c.phase = .executionRead)
      (he : c.execution = .read data pos outcome) : Shows c (c.inPhase (.reading data pos outcome))
  | writing {t : Transfer} {data : ByteArray} (hp : c.phase = .executionWrite)
      (he : c.execution = .write t data) : Shows c (c.inPhase (.writing t data))
  | formatting {select : Select} {count filler : UInt8} {ids : List UInt8}
      (hp : c.phase = .executionWrite) (he : c.execution = .format select count filler ids) :
      Shows c (c.inPhase (.formatting select count filler ids))
  | result (hp : c.phase = .result) (he : c.execution = .none) :
      Shows c (c.inPhase (.result (c.result.drop c.resultPos)))

namespace Buffered

variable {c : Buffered} {f : Fdc} {q : Phase}

theorem shows_initial : initial.Shows Fdc.initial := .idle rfl rfl

theorem mainStatus_eq (h : c.Shows f) : c.mainStatus = f.mainStatus := by
  cases h with
  | idle hp | command hp | reading hp | writing hp | formatting hp | result hp =>
    simp only [mainStatus, hp, Fdc.mainStatus, inPhase]

/-! ## Carrying out a command -/

@[simp] theorem drive_inPhase (unit : Nat) : (c.inPhase q).drive unit = c.bare.drive unit := by
  simp only [drive, bare, inPhase]

@[simp] theorem disk_inPhase (unit : Nat) : (c.inPhase q).disk unit = c.bare.disk unit := by
  simp only [disk, drive_inPhase]

@[simp] theorem isReady_inPhase (unit : Nat) : (c.inPhase q).isReady unit = c.bare.isReady unit := by
  simp only [isReady, disk_inPhase]
  rfl

@[simp] theorem isAttached_inPhase (unit : Nat) :
    (c.inPhase q).isAttached unit = c.bare.isAttached unit := by
  simp only [isAttached, drive_inPhase]

@[simp] theorem cylinder_inPhase (unit : Nat) :
    (c.inPhase q).cylinder unit = c.bare.cylinder unit := by
  simp only [cylinder, drive_inPhase]

/-- Both take the same way, and on each they stay alike. -/
theorem shows_ite {p : Prop} [Decidable p] {c' : Buffered} {g : Fdc} (hthen : p → c.Shows f)
    (helse : ¬p → c'.Shows g) : (if p then c else c').Shows (if p then f else g) := by
  split
  next hp => exact hthen hp
  next hp => exact helse hp

theorem shows_enterResult (he : c.execution = .none) (bytes : List UInt8) :
    (c.enterResult bytes).Shows ((c.inPhase q).enterResult bytes) := .result rfl he

theorem shows_startRead (he : c.execution = .none) (data : ByteArray) (outcome : List UInt8) :
    (c.startRead data outcome).Shows ((c.inPhase q).startRead data outcome) := by
  unfold Buffered.startRead Fdc.startRead
  exact shows_ite (fun _ => shows_enterResult he outcome) fun _ => .reading rfl rfl

/-- The execution that was there goes, whatever it was. -/
theorem shows_beginWrite (t : Transfer) : (c.beginWrite t).Shows ((c.inPhase q).beginWrite t) := by
  simp only [Buffered.beginWrite, Fdc.beginWrite, disk_inPhase, cylinder_inPhase]
  cases (c.bare.disk t.select.unit).bind fun d =>
      d.sector (c.bare.cylinder t.select.unit) t.select.head t.cylinder t.record with
  | none => exact shows_enterResult (c := { c with execution := .none }) rfl _
  | some _ => exact .writing rfl rfl

/-- A drive is changed alike in every phase. -/
theorem inPhase_modifyDrive (unit : Nat) (change : Drive → Drive) :
    (c.inPhase q).modifyDrive unit change =
      (c.withBare (c.bare.modifyDrive unit change)).inPhase q := by
  simp only [modifyDrive, drive_inPhase]
  cases c.bare.drive unit <;> rfl

theorem inPhase_modifyDisk (unit : Nat) (change : Disk.Image → Disk.Image) :
    (c.inPhase q).modifyDisk unit change = (c.withBare (c.bare.modifyDisk unit change)).inPhase q :=
  inPhase_modifyDrive unit _

theorem shows_writeSectors (he : c.execution = .none) (t : Transfer) :
    (c.writeSectors t).Shows ((c.inPhase q).writeSectors t) := by
  simp only [Buffered.writeSectors, Fdc.writeSectors, isReady_inPhase]
  exact shows_ite (fun _ => shows_beginWrite t) fun _ => shows_enterResult he _

theorem shows_commitSector (t : Transfer) (data : ByteArray) :
    (c.commitSector t data).Shows ((c.inPhase q).commitSector t data) := by
  simp only [Buffered.commitSector, Fdc.commitSector, disk_inPhase, cylinder_inPhase,
    inPhase_modifyDisk]
  cases (c.bare.disk t.select.unit).bind fun d => d.writeSector (c.bare.cylinder t.select.unit)
      t.select.head t.cylinder t.record data t.deleted with
  | none => exact shows_enterResult (c := { c with execution := .none }) rfl _
  | some disk => exact shows_ite (fun _ => .result rfl rfl) fun _ => shows_beginWrite _

theorem shows_commitFormat {select : Select} {count filler : UInt8} {ids : List UInt8}
    (he : c.execution = .format select count filler ids) :
    c.commitFormat.Shows ((c.inPhase q).commitFormat select filler ids) := by
  simp only [Buffered.commitFormat, he, Fdc.commitFormat, cylinder_inPhase, inPhase_modifyDisk]
  exact .result rfl rfl

theorem shows_formatTrack (he : c.execution = .none) (select : Select)
    (sizeCode count filler : UInt8) :
    (c.formatTrack select sizeCode count filler).Shows
      ((c.inPhase q).formatTrack select sizeCode count filler) := by
  simp only [Buffered.formatTrack, Fdc.formatTrack, isReady_inPhase]
  refine shows_ite (fun _ => ?_) fun _ => shows_enterResult he _
  refine shows_ite (fun _ => ?_) fun _ => .formatting rfl rfl
  exact shows_commitFormat (c := { c with execution := .format select count filler [] }) rfl

/-- A drive that is ready has a disk in it, so the read does not end without a
result. -/
theorem shows_readSectors (he : c.execution = .none) (t : Transfer) :
    (c.readSectors t).Shows ((c.inPhase q).readSectors t) := by
  simp only [Buffered.readSectors, Fdc.readSectors, isReady_inPhase, disk_inPhase, cylinder_inPhase]
  cases hd : c.bare.disk t.select.unit with
  | none =>
    have hr : c.bare.isReady t.select.unit = false := by simp [isReady, hd]
    simp only [hr]
    exact shows_enterResult he _
  | some disk =>
    cases c.bare.isReady t.select.unit with
    | true => exact shows_startRead he _ _
    | false => exact shows_enterResult he _

theorem shows_readTrack (he : c.execution = .none) (t : Transfer) :
    (c.readTrack t).Shows ((c.inPhase q).readTrack t) := by
  simp only [Buffered.readTrack, Fdc.readTrack, isReady_inPhase, disk_inPhase, cylinder_inPhase]
  refine shows_ite (fun _ => ?_) fun _ => shows_enterResult he _
  exact shows_ite (fun _ => shows_enterResult he _) fun _ => shows_startRead he _ _

theorem shows_readId (he : c.execution = .none) (select : Select) :
    (c.readId select).Shows ((c.inPhase q).readId select) := by
  have hnext : (c.inPhase q).nextId = c.nextId := rfl
  simp only [Buffered.readId, Fdc.readId, isReady_inPhase, disk_inPhase, cylinder_inPhase, hnext]
  refine shows_ite (fun _ => ?_) fun _ => shows_enterResult he _
  generalize ((c.bare.disk select.unit).bind fun d =>
    d.track (c.bare.cylinder select.unit) select.head).elim [] (·.sectors) = sectors
  cases sectors[c.nextId.toNat % sectors.length]? with
  | none => exact shows_enterResult he _
  | some s => exact .result rfl he

/-- A unit that a seek ended on is forgotten in both alike. -/
theorem shows_senseInterrupt (he : c.execution = .none) :
    c.senseInterrupt.Shows (c.inPhase q).senseInterrupt := by
  have hends : (c.inPhase q).seekEnds = c.seekEnds := rfl
  simp only [Buffered.senseInterrupt, Fdc.senseInterrupt, hends, cylinder_inPhase]
  generalize List.findSome? _ _ = ended
  cases ended with
  | none => exact shows_enterResult he _
  | some _ => exact .result rfl he

theorem shows_senseDrive (he : c.execution = .none) (select : Select) :
    (c.senseDrive select).Shows ((c.inPhase q).senseDrive select) := by
  simp only [Buffered.senseDrive, Fdc.senseDrive, isReady_inPhase, isAttached_inPhase,
    cylinder_inPhase, disk_inPhase]
  exact shows_enterResult he _

theorem shows_seek (hp : c.phase = .idle) (he : c.execution = .none) (select : Select)
    (cylinder : UInt8) : (c.seek select cylinder).Shows ((c.inPhase q).seek select cylinder) := by
  have hseek : (c.inPhase q).seek select cylinder = (c.seek select cylinder).inPhase .idle := by
    simp only [Buffered.seek, Fdc.seek, setCylinder, inPhase_modifyDrive]
    rfl
  rw [hseek]
  exact .idle hp he

/-! ## The parameters of a command -/

theorem isSome_bind_getElem?_iff {α : Type} {p : List UInt8} {i : Nat} {g : UInt8 → Option α} :
    (p[i]?.bind g).isSome ↔ ∃ h : i < p.length, (g p[i]).isSome := by
  by_cases h : i < p.length
  · simp only [List.getElem?_eq_getElem h, Option.bind_some, h, exists_true_left]
  · simp [h]

/-- A command is carried out where its bytes are as many as it has, and not
where one is missing. -/
theorem isSome_dispatch_iff (c : Buffered) (first : UInt8) (rest : List UInt8) :
    (c.dispatch (first :: rest)).isSome ↔ (Command.ofByte first).length ≤ (first :: rest).length := by
  generalize hp : first :: rest = p
  have hfirst : p[0]? = some first := by simp [← hp]
  have hpos : 0 < p.length := by simp [← hp]
  simp only [dispatch, hfirst, Option.bind_eq_bind, Option.bind_some, Option.pure_def]
  cases Command.ofByte first <;>
    simp only [transfer?, Option.bind_eq_bind, Option.pure_def, Option.bind_assoc, Option.bind_some,
      isSome_bind_getElem?_iff, Option.isSome_some, exists_prop, and_true, true_iff, Command.length] <;>
    omega

theorem eq_of_length_one : ∀ {p : List UInt8}, p.length = 1 → ∃ a, p = [a]
  | [a], _ => ⟨a, rfl⟩

theorem eq_of_length_two : ∀ {p : List UInt8}, p.length = 2 → ∃ a b, p = [a, b]
  | [a, b], _ => ⟨a, b, rfl⟩

theorem eq_of_length_five : ∀ {p : List UInt8}, p.length = 5 → ∃ a b c d e, p = [a, b, c, d, e]
  | [a, b, c, d, e], _ => ⟨a, b, c, d, e, rfl⟩

theorem eq_of_length_eight : ∀ {p : List UInt8}, p.length = 8 →
    ∃ a b c d e f g h, p = [a, b, c, d, e, f, g, h]
  | [a, b, c, d, e, f, g, h], _ => ⟨a, b, c, d, e, f, g, h, rfl⟩

/-- A command of its full length does the same in both. -/
theorem shows_dispatch {c' : Buffered} (hp : c.phase = .idle) (he : c.execution = .none)
    {first : UInt8} {rest : List UInt8}
    (h : (first :: rest).length = (Command.ofByte first).length)
    (hc' : c.dispatch (first :: rest) = some c') :
    c'.Shows ((c.inPhase q).run (.ofBytes (first :: rest))) := by
  simp only [dispatch, List.getElem?_cons_zero, Option.bind_eq_bind, Option.bind_some] at hc'
  simp only [Request.ofBytes]
  generalize Command.ofByte first = command at h hc' ⊢
  cases command with
  | specify =>
    obtain ⟨a, b, rfl⟩ := eq_of_length_two (Nat.succ.inj h)
    obtain rfl : { c with specified := (a, b) } = c' := Option.some.inj hc'
    exact .idle hp he
  | senseDriveStatus =>
    obtain ⟨_, rfl⟩ := eq_of_length_one (Nat.succ.inj h)
    exact Option.some.inj hc' ▸ shows_senseDrive he _
  | recalibrate =>
    obtain ⟨_, rfl⟩ := eq_of_length_one (Nat.succ.inj h)
    exact Option.some.inj hc' ▸ shows_seek hp he _ _
  | seek =>
    obtain ⟨_, _, rfl⟩ := eq_of_length_two (Nat.succ.inj h)
    exact Option.some.inj hc' ▸ shows_seek hp he _ _
  | senseInterruptStatus => exact Option.some.inj hc' ▸ shows_senseInterrupt he
  | readData | readDeletedData =>
    obtain ⟨_, _, _, _, _, _, _, _, rfl⟩ := eq_of_length_eight (Nat.succ.inj h)
    exact Option.some.inj hc' ▸ shows_readSectors he _
  | readTrack =>
    obtain ⟨_, _, _, _, _, _, _, _, rfl⟩ := eq_of_length_eight (Nat.succ.inj h)
    exact Option.some.inj hc' ▸ shows_readTrack he _
  | writeData | writeDeletedData =>
    obtain ⟨_, _, _, _, _, _, _, _, rfl⟩ := eq_of_length_eight (Nat.succ.inj h)
    exact Option.some.inj hc' ▸ shows_writeSectors he _
  | readId =>
    obtain ⟨_, rfl⟩ := eq_of_length_one (Nat.succ.inj h)
    exact Option.some.inj hc' ▸ shows_readId he _
  | formatTrack =>
    obtain ⟨_, _, _, _, _, rfl⟩ := eq_of_length_five (Nat.succ.inj h)
    exact Option.some.inj hc' ▸ shows_formatTrack he _ _ _ _
  | version | invalid => exact Option.some.inj hc' ▸ shows_enterResult he _

theorem shows_execute (he : c.execution = .none) {first : UInt8} {rest : List UInt8}
    (hb : c.command = first :: rest) (h : c.command.length = (Command.ofByte first).length) :
    ∃ c', c.execute = some c' ∧ c'.Shows ((c.inPhase q).run (.ofBytes c.command)) := by
  rw [hb] at h
  rw [execute, hb]
  obtain ⟨c', hc'⟩ := Option.isSome_iff_exists.mp
    ((isSome_dispatch_iff { c with command := [], phase := .idle } first rest).mpr (Nat.le_of_eq h.symm))
  exact ⟨c', hc', shows_dispatch (c := { c with command := [], phase := .idle }) rfl he h hc'⟩

/-! ## The accesses -/

theorem shows_writeExecutionByte (h : c.Shows f) (hp : c.phase = .executionWrite) (v : UInt8) :
    (c.writeExecutionByte v).Shows (f.write v) := by
  cases h with
  | idle hp' | command hp' | reading hp' | result hp' => simp [hp] at hp'
  | @writing t data _ he =>
    simp only [writeExecutionByte, he, Fdc.write, inPhase]
    refine shows_ite (fun _ => ?_) fun _ => .writing hp rfl
    exact shows_commitSector (c := { c with execution := .write t .empty }) t _
  | @formatting select count filler ids _ he =>
    simp only [writeExecutionByte, he, Fdc.write, inPhase]
    refine shows_ite (fun _ => ?_) fun _ => .formatting hp rfl
    exact shows_commitFormat (c := { c with execution := .format select count filler _ }) rfl

/-- A byte that is written goes the same way in both, and if it completes a
command, no parameter is missing. -/
theorem shows_write (h : c.Shows f) (hf : f.phase.Coherent) (v : UInt8) :
    ∃ c', c.write v = some c' ∧ c'.Shows (f.write v) := by
  cases h with
  | idle hp he =>
    rcases write_collected hf rfl v with ⟨hlt, hw⟩ | ⟨hfull, hw, -⟩
    · have hne : (Command.ofByte v).length ≠ 1 := Nat.ne_of_gt hlt
      refine ⟨{ c with
        command := [v], commandLength := (Command.ofByte v).length, phase := .command }, ?_, ?_⟩
      · simp only [Buffered.write, hp, if_neg hne]
      · rw [hw]
        exact .command rfl he fun _ => rfl
    · have hone : (Command.ofByte v).length = 1 := hfull.symm
      obtain ⟨c', hc', hs⟩ := shows_execute (q := .idle)
        (c := { c with command := [v], commandLength := (Command.ofByte v).length }) he rfl hfull
      refine ⟨c', ?_, hw ▸ hs⟩
      simp only [Buffered.write, hp, if_pos hone]
      exact hc'
  | command hp he hl =>
    have hstarted : ∃ first rest, c.command = first :: rest ∧ _ := hf
    obtain ⟨first, rest, hb, -⟩ := hstarted
    have hl : c.commandLength = (Command.ofByte first).length := by simpa [hb] using hl v
    have hhead : (c.command ++ [v]).headD v = first := by simp [hb]
    rcases write_collected hf rfl v with ⟨hlt, hw⟩ | ⟨hfull, hw, -⟩
    · rw [hhead] at hlt
      refine ⟨{ c with command := c.command ++ [v] }, ?_, ?_⟩
      · simp only [Buffered.write, hp, if_neg (Nat.not_le.mpr (hl ▸ hlt))]
      · rw [hw]
        exact .command hp he fun w => by simp [hb, hl]
    · rw [hhead] at hfull
      have hall : c.command ++ [v] = first :: (rest ++ [v]) := by simp [hb]
      obtain ⟨c', hc', hs⟩ := shows_execute (q := .command c.command)
        (c := { c with command := c.command ++ [v] }) he hall hfull
      refine ⟨c', ?_, hw ▸ hs⟩
      simp only [Buffered.write, hp, if_pos (Nat.le_of_eq (hl.trans hfull.symm))]
      exact hc'
  | writing hp he =>
    refine ⟨c.writeExecutionByte v, by simp only [Buffered.write, hp], ?_⟩
    exact shows_writeExecutionByte (.writing hp he) hp v
  | formatting hp he =>
    refine ⟨c.writeExecutionByte v, by simp only [Buffered.write, hp], ?_⟩
    exact shows_writeExecutionByte (.formatting hp he) hp v
  | reading hp he => exact ⟨c, by simp only [Buffered.write, hp], .reading hp he⟩
  | result hp he => exact ⟨c, by simp only [Buffered.write, hp], .result hp he⟩

/-- Bit 6 of the main status register: the data register is to be read. -/
def wantsRead (c : Buffered) : Bool := c.mainStatus &&& 0x40 != 0

theorem wantsRead_eq (c : Buffered) : c.wantsRead = match c.phase with
    | .executionRead | .result => true
    | .idle | .command | .executionWrite => false := by
  simp only [wantsRead, mainStatus]
  cases c.phase <;> decide

/-- A read that is not asked for gives 0xFF and changes nothing. -/
theorem read_of_not_wantsRead (h : c.wantsRead = false) : c.read = (0xFF, c) := by
  cases hp : c.phase with
  | executionRead | result => simp [wantsRead_eq, hp] at h
  | idle | command | executionWrite => simp only [Buffered.read, hp]

/-- A byte that is written while a read is asked for is lost. -/
theorem write_of_wantsRead (h : c.wantsRead = true) (v : UInt8) : c.write v = some c := by
  cases hp : c.phase with
  | executionRead | result => simp only [Buffered.write, hp]
  | idle | command | executionWrite => simp [wantsRead_eq, hp] at h

theorem readExecutionByte_eq {data : ByteArray} {pos : Nat} {outcome : List UInt8}
    (he : c.execution = .read data pos outcome) : c.readExecutionByte =
      (if h : pos < data.size then data.get pos h else 0xFF,
        if data.size ≤ pos + 1 then { c with execution := .none }.enterResult outcome
        else { c with execution := .read data (pos + 1) outcome }) := by
  rw [readExecutionByte, he]

/-- A read takes the same byte in both. -/
theorem shows_read (h : c.Shows f) (hf : f.phase.Coherent) :
    c.read.1 = f.read.1 ∧ c.read.2.Shows f.read.2 := by
  cases hw : c.wantsRead with
  | false =>
    have hw' : f.wantsRead = false := by rw [Fdc.wantsRead, ← mainStatus_eq h]; exact hw
    rw [read_of_not_wantsRead hw, Fdc.read_of_not_wantsRead hw']
    exact ⟨rfl, h⟩
  | true =>
    cases h with
    | idle hp | command hp | writing hp | formatting hp => simp [wantsRead_eq, hp] at hw
    | @reading data pos outcome hp he =>
      have hread : c.read = c.readExecutionByte := by rw [Buffered.read, hp]
      rw [hread, readExecutionByte_eq he]
      exact ⟨rfl, shows_ite (fun _ => .result rfl rfl) fun _ => .reading hp rfl⟩
    | result hp he =>
      have hlt : c.resultPos < c.result.length := by
        have hne : c.result.drop c.resultPos ≠ [] := hf
        simpa using hne
      have hread : c.read = (c.result[c.resultPos],
          if c.result.length ≤ c.resultPos + 1 then { c with phase := .idle, result := [], resultPos := 0 }
          else { c with resultPos := c.resultPos + 1 }) := by
        simp [Buffered.read, hp, hlt]
      rw [List.drop_eq_getElem_cons hlt, hread]
      cases hleft : c.result.drop (c.resultPos + 1) with
      | nil =>
        have hlast : c.result.length ≤ c.resultPos + 1 := List.drop_eq_nil_iff.mp hleft
        rw [if_pos hlast]
        exact ⟨rfl, .idle rfl he⟩
      | cons v left =>
        have hmore : ¬c.result.length ≤ c.resultPos + 1 := fun hle => by
          simp [List.drop_eq_nil_iff.mpr hle] at hleft
        have hshows : Shows { c with resultPos := c.resultPos + 1 }
            (c.inPhase (.result (c.result.drop (c.resultPos + 1)))) := .result hp he
        rw [hleft] at hshows
        rw [if_neg hmore]
        exact ⟨rfl, hshows⟩

/-! ## Every state that a run comes to -/

/-- The controller after an action, unless a command lacks a parameter. Drives
and disks, the motor and time are handled as they are without the buffers. -/
def perform (c : Buffered) : Action → Option Buffered
  | .write v => c.write v
  | .read => some c.read.2
  | .reset => some c.reset
  | a => some (c.withBare (c.bare.perform a))

/-- The controller after a run of actions. -/
def performAll (c : Buffered) (actions : List Action) : Option Buffered := actions.foldlM perform c

theorem shows_withBare (h : c.Shows f) (g : Fdc) :
    (c.withBare g).Shows { g with phase := f.phase } := by
  cases h with
  | idle hp he => exact .idle hp he
  | command hp he hl => exact .command hp he hl
  | reading hp he => exact .reading hp he
  | writing hp he => exact .writing hp he
  | formatting hp he => exact .formatting hp he
  | result hp he => exact .result hp he

theorem Shows.eq_inPhase (h : c.Shows f) : f = c.inPhase f.phase := by
  cases h <;> rfl

/-- What is done to drives and disks, to the motor and to time is the same in
every phase. -/
theorem perform_inPhase {a : Action} (hw : ∀ v, a ≠ .write v) (hr : a ≠ .read) (hs : a ≠ .reset) :
    (c.inPhase q).perform a = { c.bare.perform a with phase := q } := by
  cases a with
  | write v => exact absurd rfl (hw v)
  | read => exact absurd rfl hr
  | reset => exact absurd rfl hs
  | setMotor | clock | detach => rfl
  | attach unit =>
    simp only [Fdc.perform, attach, isAttached_inPhase]
    split <;> rfl
  | insert unit disk =>
    simp only [Fdc.perform, insert, drive_inPhase]
    cases c.bare.drive unit <;> rfl
  | eject unit => exact inPhase_modifyDrive ..
  | setCylinder unit cylinder => exact inPhase_modifyDrive ..

theorem shows_perform (h : c.Shows f) (hf : f.phase.Coherent) (a : Action) :
    ∃ c', c.perform a = some c' ∧ c'.Shows (f.perform a) := by
  cases a with
  | write v => exact shows_write h hf v
  | read => exact ⟨c.read.2, rfl, (shows_read h hf).2⟩
  | reset =>
    refine ⟨c.reset, rfl, ?_⟩
    rw [h.eq_inPhase]
    exact .idle rfl rfl
  | setMotor | clock | attach | detach | insert | eject | setCylinder =>
    refine ⟨_, rfl, ?_⟩
    rw [h.eq_inPhase, perform_inPhase (by simp) (by simp) (by simp)]
    exact shows_withBare h _

/-- The run goes through in both, and they stay alike. -/
theorem shows_performAll (actions : List Action) :
    ∀ {c : Buffered} {f : Fdc}, c.Shows f → f.phase.Coherent →
      ∃ c', c.performAll actions = some c' ∧ c'.Shows (f.performAll actions) := by
  induction actions with
  | nil => exact fun h _ => ⟨_, rfl, h⟩
  | cons a actions ih =>
    intro c f h hf
    obtain ⟨c', hc', h'⟩ := shows_perform h hf a
    obtain ⟨c'', hc'', h''⟩ := ih h' (coherent_perform hf a)
    refine ⟨c'', ?_, h''⟩
    rw [performAll, List.foldlM_cons, hc']
    exact hc''

/-- The fields fit the phase. -/
structure Coherent (c : Buffered) : Prop where
  /-- A command under way has begun and is short of bytes. -/
  command : c.phase = .command → ∃ first rest, c.command = first :: rest ∧
    c.command.length < (Command.ofByte first).length
  /-- Data to be read out is there, with a result to follow. -/
  executionRead : c.phase = .executionRead → ∃ data pos outcome,
    c.execution = .read data pos outcome ∧ pos < data.size ∧ outcome ≠ []
  /-- Data to be taken in is still wanted; a sector of no bytes is complete with
  the first byte that comes. -/
  executionWrite : c.phase = .executionWrite →
    (∃ t data, c.execution = .write t data ∧ data.size < max 1 t.sectorLength) ∨
      ∃ select count filler ids, c.execution = .format select count filler ids ∧
        ids.length < 4 * count.toNat
  /-- A result has a byte left. -/
  result : c.phase = .result → c.result ≠ [] ∧ c.resultPos < c.result.length
  /-- Outside a transfer there is nothing left of one. -/
  execution : c.phase = .idle ∨ c.phase = .command ∨ c.phase = .result → c.execution = .none

theorem Shows.coherent (h : c.Shows f) (hf : f.phase.Coherent) : c.Coherent where
  command hphase := by
    cases h with
    | command => exact hf
    | idle hp | reading hp | writing hp | formatting hp | result hp => simp [hp] at hphase
  executionRead hphase := by
    cases h with
    | @reading data pos outcome _ he => exact ⟨data, pos, outcome, he, hf⟩
    | idle hp | command hp | writing hp | formatting hp | result hp => simp [hp] at hphase
  executionWrite hphase := by
    cases h with
    | @writing t data _ he => exact .inl ⟨t, data, he, hf⟩
    | @formatting select count filler ids _ he => exact .inr ⟨select, count, filler, ids, he, hf⟩
    | idle hp | command hp | reading hp | result hp => simp [hp] at hphase
  result hphase := by
    cases h with
    | result =>
      have hne : c.result.drop c.resultPos ≠ [] := hf
      have hlt : c.resultPos < c.result.length := by simpa using hne
      exact ⟨List.ne_nil_of_length_pos (by omega), hlt⟩
    | idle hp | command hp | reading hp | writing hp | formatting hp => simp [hp] at hphase
  execution hphase := by
    cases h with
    | idle _ he | command _ he | result _ he => exact he
    | reading hp | writing hp | formatting hp => simp [hp] at hphase

/-- While data is read out, the byte read is the one that is next in it. -/
theorem Coherent.read_data (h : c.Coherent) (hp : c.phase = .executionRead) :
    ∃ data pos outcome, ∃ hlt : pos < data.size,
      c.execution = .read data pos outcome ∧ c.read.1 = data[pos] := by
  obtain ⟨data, pos, outcome, he, hlt, -⟩ := h.executionRead hp
  refine ⟨data, pos, outcome, hlt, he, ?_⟩
  have hread : c.read = c.readExecutionByte := by rw [Buffered.read, hp]
  rw [hread, readExecutionByte_eq he]
  exact dif_pos hlt

/-- While a result is read, the byte read is the one that is next in it. -/
theorem Coherent.read_result (h : c.Coherent) (hp : c.phase = .result) :
    ∃ hlt : c.resultPos < c.result.length, c.read.1 = c.result[c.resultPos] := by
  have hlt := (h.result hp).2
  refine ⟨hlt, ?_⟩
  simp only [Buffered.read, hp, List.getD_eq_getElem?_getD, List.getElem?_eq_getElem hlt,
    Option.getD_some]

/-- **The buffers agree in every reachable state.** After any run of actions from
power-on, none of which lacks a parameter, the fields fit the phase and show the
controller whose phase holds them, with the same main status and the same byte
to be read. Whatever is done next has every parameter that it reads; a read takes
the byte that is next in the data or in the result; and an access that the main
status does not ask for leaves every field as it is. -/
theorem buffers_agree (actions : List Action) :
    let f := Fdc.initial.performAll actions
    ∃ c, initial.performAll actions = some c ∧ c.Coherent ∧
      (c.Shows f ∧ c.mainStatus = f.mainStatus ∧ c.read.1 = f.read.1) ∧
      (∀ a, (c.perform a).isSome) ∧
      (c.phase = .executionRead → ∃ data pos outcome, ∃ hlt : pos < data.size,
        c.execution = .read data pos outcome ∧ c.read.1 = data[pos]) ∧
      (c.phase = .result →
        ∃ hlt : c.resultPos < c.result.length, c.read.1 = c.result[c.resultPos]) ∧
      (c.mainStatus &&& 0x40 = 0 → c.read = (0xFF, c)) ∧
      (c.mainStatus &&& 0x40 ≠ 0 → ∀ v, c.write v = some c) := by
  intro f
  obtain ⟨c, hc, h⟩ := shows_performAll actions shows_initial trivial
  have hf : (Fdc.initial.performAll actions).phase.Coherent := coherent_performAll actions
  have hco : c.Coherent := h.coherent hf
  refine ⟨c, hc, hco, ⟨h, mainStatus_eq h, (shows_read h hf).1⟩, fun a => ?_, hco.read_data,
    hco.read_result, fun hr => ?_, fun hr v => ?_⟩
  · obtain ⟨c', hc', -⟩ := shows_perform h hf a
    rw [hc', Option.isSome_some]
  · exact read_of_not_wantsRead (by simpa [wantsRead] using hr)
  · exact write_of_wantsRead (by simpa [wantsRead] using hr) v

end Buffered

end AmstradCpc.Fdc
