/-
Disks change only where data is complete. Whatever a program does with the controller, as long as nobody
handles drives and disks, a disk stays as it is from one access to the next, unless the last byte for a
sector or for the sector IDs of a track comes in, or the last byte of a command to format a track
without sectors. Then the disk of the unit which the command addresses changes, and no others, at the
place under its head and nowhere else. So a transfer that is broken off leaves the sectors that were
complete and nothing more, and a disk that has changed at all is marked as changed.
-/
import AmstradCpc.Proofs.Fdc.Formatting

namespace AmstradCpc.Fdc

open Disk (Image)

variable {f g : Fdc} {a : Action} {unit : Nat}

/-- What a running program does: accesses to the data register, the motor, time and reset. -/
def Action.IsSignal : Action → Prop
  | .write _ | .read | .setMotor _ | .clock | .reset => True
  | .attach _ | .detach _ | .insert .. | .eject _ | .setCylinder .. => False

/-- After a run of actions, an action completes data for a drive and a head: those of the last command,
which no reset has followed. -/
inductive Commits (actions : List Action) : Action → Select → Prop
  /-- The last byte of a sector of a write. -/
  | sector {t : Transfer} {record v : UInt8} {received : ByteArray} (hcommand : UnderWay actions (.write t))
      (hp : (initial.performAll actions).phase = .writing { t with record } received)
      (hsize : received.size + 1 = max 1 t.sectorLength) : Commits actions (.write v) t.select
  /-- The last byte of the sector IDs of a track. -/
  | track {select : Select} {sizeCode count filler v : UInt8} {received : List UInt8}
      (hcommand : UnderWay actions (.format select sizeCode count filler))
      (hp : (initial.performAll actions).phase = .formatting select count filler received)
      (hlen : received.length + 1 = 4 * count.toNat) : Commits actions (.write v) select
  /-- The last byte of a command to format a track without sectors. -/
  | emptyTrack {select : Select} {sizeCode filler v : UInt8}
      (hcommand : (initial.performAll actions).completed (.write v) = some (.format select sizeCode 0 filler))
      (hready : (initial.performAll actions).isReady select.unit = true) : Commits actions (.write v) select

/-- From `f` to `g` the disk of a unit changes, at the place under its head. -/
def ChangesDisk (f g : Fdc) (unit : Nat) (side : UInt8) : Prop :=
  ∃ d d', f.disk unit = some d ∧ g.disk unit = some d' ∧ d.ChangedAt d' (f.cylinder unit) side

/-! ## One action -/

theorem disk_commitSector_cases (f : Fdc) (t : Transfer) (data : ByteArray) (unit : Nat) :
    (f.commitSector t data).disk unit = f.disk unit ∨
      t.select.unit = unit ∧ f.ChangesDisk (f.commitSector t data) unit t.select.head := by
  simp only [ChangesDisk, disk_commitSector]
  split
  · next hunit =>
    subst hunit
    cases hd : f.disk t.select.unit with
    | none => exact .inl rfl
    | some d =>
      cases hw : d.writeSector (f.cylinder t.select.unit) t.select.head t.cylinder t.record data t.deleted with
      | none => exact .inl (by rw [Option.map_some, hw, Option.getD_none])
      | some d' =>
        exact .inr ⟨rfl, d, d', rfl, by rw [Option.map_some, hw, Option.getD_some],
          Image.changedAt_writeSector hw⟩
  · exact .inl rfl

theorem disk_commitFormat_cases (f : Fdc) (select : Select) (filler : UInt8) (received : List UInt8)
    (unit : Nat) :
    (f.commitFormat select filler received).disk unit = f.disk unit ∨
      select.unit = unit ∧ f.ChangesDisk (f.commitFormat select filler received) unit select.head := by
  simp only [ChangesDisk, disk_commitFormat]
  split
  · next hunit =>
    subst hunit
    cases hd : f.disk select.unit with
    | none => exact .inl rfl
    | some d =>
      exact .inr ⟨rfl, d, _, rfl, rfl, d.changedAt_formatTrack _ (head_lt select) _ _⟩
  · exact .inl rfl

theorem disk_written {actions : List Action} {v : UInt8} (hw : (initial.performAll actions).Written v g)
    (unit : Nat) :
    g.disk unit = (initial.performAll actions).disk unit ∨
      ∃ select, Commits actions (.write v) select ∧ select.unit = unit ∧
        (initial.performAll actions).ChangesDisk g unit select.head := by
  have hserves := takesData_underWay actions
  generalize hf : initial.performAll actions = f at hw hserves ⊢
  cases hw with
  | @command request hc =>
    cases request with
    | seek select cylinder => exact .inl (disk_setCylinder ..)
    | format select sizeCode count filler =>
      simp only [run, formatTrack]
      split
      · next hready =>
        split
        · next hzero =>
          subst hzero
          exact (disk_commitFormat_cases f select filler [] unit).imp_right
            fun hchanged => ⟨select, .emptyTrack (hf ▸ hc) (hf ▸ hready), hchanged⟩
        · exact .inl rfl
      · exact .inl rfl
    | _ => exact .inl (disk_of_drives (drives_run f (by simp) (by simp)) unit)
  | @sector t received hp hsize =>
    obtain ⟨request, hcommand, hserve⟩ := hserves (by rw [hp]; trivial)
    rw [hp] at hserve
    cases request with
    | write t' =>
      obtain ⟨record, rfl⟩ := hserve
      exact (disk_commitSector_cases { f with phase := .idle } _ _ unit).imp_right
        fun hchanged => ⟨t'.select, .sector hcommand (hf ▸ hp) hsize, hchanged⟩
    | _ => exact hserve.elim
  | @track select count filler received hp hlen =>
    obtain ⟨request, hcommand, hserve⟩ := hserves (by rw [hp]; trivial)
    rw [hp] at hserve
    cases request with
    | format select' sizeCode count' filler' =>
      obtain ⟨rfl, rfl, rfl⟩ := hserve
      exact (disk_commitFormat_cases f select filler _ unit).imp_right
        fun hchanged => ⟨select, .track hcommand (hf ▸ hp) hlen, hchanged⟩
    | _ => exact hserve.elim
  | commandByte | sectorByte | trackByte | lost => exact .inl rfl

/-- A disk changes only where data is complete, if nobody handles drives and disks. -/
theorem disk_perform_signal (actions : List Action) (hsignal : a.IsSignal) (unit : Nat) :
    ((initial.performAll actions).perform a).disk unit = (initial.performAll actions).disk unit ∨
      ∃ select, Commits actions a select ∧ select.unit = unit ∧
        (initial.performAll actions).ChangesDisk ((initial.performAll actions).perform a) unit select.head := by
  cases a with
  | write v => exact disk_written (write_written (coherent_performAll actions) v) unit
  | read => exact .inl (disk_of_drives (drives_read _) unit)
  | setMotor | clock | reset => exact .inl rfl
  | attach | detach | insert | eject | setCylinder => exact hsignal.elim

/-! ## Runs -/

section Runs

variable {before after : List Action}

/-- While no data is completed the disks stay as they are. -/
theorem disk_performAll_of_not_commits (hsignals : ∀ a ∈ after, a.IsSignal)
    (hnone : ∀ between a rest select, after = between ++ a :: rest → ¬Commits (before ++ between) a select)
    (unit : Nat) : (initial.performAll (before ++ after)).disk unit = (initial.performAll before).disk unit := by
  induction after using List.reverseRecOn with
  | nil => rw [List.append_nil]
  | append_singleton after a ih =>
    have hbefore := ih (fun b hb => hsignals b (by simp [hb])) fun between b rest select h =>
      hnone between b (rest ++ [a]) select (by rw [h]; simp)
    rw [← List.append_assoc, performAll_append]
    rcases disk_perform_signal (before ++ after) (hsignals a (by simp)) unit with hsame | ⟨select, hcommits, -⟩
    · exact hsame.trans hbefore
    · exact absurd hcommits (hnone after a [] select rfl)

/-- A disk that was there before is there afterwards, as it was or marked as changed. -/
theorem disk_performAll_dirty (hsignals : ∀ a ∈ after, a.IsSignal) {d : Image}
    (hd : (initial.performAll before).disk unit = some d) :
    ∃ d', (initial.performAll (before ++ after)).disk unit = some d' ∧ (d' = d ∨ d'.dirty = true) := by
  induction after using List.reverseRecOn with
  | nil => exact ⟨d, by rw [List.append_nil]; exact hd, .inl rfl⟩
  | append_singleton after a ih =>
    obtain ⟨d', hd', hdirty⟩ := ih fun b hb => hsignals b (by simp [hb])
    rw [← List.append_assoc, performAll_append]
    rcases disk_perform_signal (before ++ after) (hsignals a (by simp)) unit with
      hsame | ⟨_, -, -, _, d'', -, hd'', hchanged⟩
    · exact ⟨d', hsame.trans hd', hdirty⟩
    · exact ⟨d'', hd'', .inr hchanged.dirty⟩

end Runs

/-- **Disks change only at commits.** From any state that a run of actions comes to, with any disks in
the drives, a program may write and read the data register, switch the motor, let time pass and reset.
From each of these to the next a disk stays as it is, unless a byte completes data that a command for
its unit takes; then only the tracks at the place under its head change. As long as no data is
completed, a reset finds and leaves every disk as it was. And a disk that is not as it was at some
time before is marked as changed. -/
theorem disks_change_at_commits (setup : List Action) {signals : List Action}
    (hsignals : ∀ a ∈ signals, a.IsSignal) :
    (∀ before a after, signals = before ++ a :: after → ∀ unit,
      let f := initial.performAll (setup ++ before)
      (f.perform a).disk unit = f.disk unit ∨ ∃ select, Commits (setup ++ before) a select ∧
        select.unit = unit ∧ f.ChangesDisk (f.perform a) unit select.head) ∧
      ∀ before after, signals = before ++ after → ∀ unit,
        ((∀ between a rest select, after = between ++ a :: rest →
            ¬Commits (setup ++ before ++ between) a select) →
          (initial.performAll (setup ++ signals)).reset.disk unit =
            (initial.performAll (setup ++ before)).disk unit) ∧
        ∀ d, (initial.performAll (setup ++ before)).disk unit = some d →
          ∃ d', (initial.performAll (setup ++ signals)).disk unit = some d' ∧
            (d'.sides ≠ d.sides ∨ d'.tracks ≠ d.tracks → d'.dirty = true) ∧
            (d.dirty = true → d'.dirty = true) := by
  constructor
  · rintro before a after rfl unit
    exact disk_perform_signal (setup ++ before) (hsignals a (by simp)) unit
  · rintro before after rfl unit
    have hafter : ∀ a ∈ after, a.IsSignal := fun a ha => hsignals a (by simp [ha])
    rw [← List.append_assoc]
    refine ⟨fun hnone => disk_performAll_of_not_commits hafter hnone unit, fun d hd => ?_⟩
    obtain ⟨d', hd', rfl | hdirty⟩ := disk_performAll_dirty hafter hd
    · exact ⟨d', hd', fun hne => by simp at hne, id⟩
    · exact ⟨d', hd', fun _ => hdirty, fun _ => hdirty⟩

/-- A drive is made ready, with two sectors of two bytes. -/
def twoBytesEach : List Action :=
  [.attach 0, .insert 0 ⟨1, [⟨0, 0, 0, 0, [⟨⟨0, 0, 1, 0⟩, 0, 0, byteList [1, 2]⟩,
    ⟨⟨0, 0, 2, 0⟩, 0, 0, byteList [3, 4]⟩]⟩], false⟩, .setMotor true, .clock]

/-- A command to write both sectors and the data of the first one. -/
def firstOfTwo : List Action := [0x45, 0, 0, 0, 1, 0, 2, 0x2A, 2, 6, 7].map .write

theorem not_commits_half (select : Select) : ¬Commits (twoBytesEach ++ firstOfTwo) (.write 8) select := by
  have hphase : (initial.performAll (twoBytesEach ++ firstOfTwo)).phase =
      .writing ⟨⟨0⟩, 0, 0, 2, 0, 2, 2, false⟩ .empty := rfl
  intro h
  cases h with
  | sector _ hp hsize =>
    obtain ⟨ht, hreceived⟩ := Phase.writing.inj (hphase.symm.trans hp)
    simp only [Transfer.mk.injEq] at ht
    obtain ⟨-, -, -, -, hcode, -, hshort, -⟩ := ht
    simp only [← hreceived, Transfer.sectorLength, ← hcode, ← hshort] at hsize
    exact absurd hsize (by decide)
  | track _ hp => exact nomatch hphase.symm.trans hp
  | emptyTrack hcommand => exact nomatch hcommand

/-- A reset comes when the second sector is half written: the disk is as it was with the first one
written, and is marked as changed. -/
theorem disks_change_at_commits_reset :
    let signals : List Action := firstOfTwo ++ [.write 8, .reset]
    (∀ a ∈ signals, a.IsSignal) ∧
      (initial.performAll (twoBytesEach ++ signals)).reset.disk 0 =
        (initial.performAll (twoBytesEach ++ firstOfTwo)).disk 0 ∧
      ∃ d', (initial.performAll (twoBytesEach ++ signals)).disk 0 = some d' ∧ d'.dirty = true := by
  intro signals
  have hsignals : ∀ a ∈ signals, a.IsSignal := by
    simp [signals, firstOfTwo, Action.IsSignal]
  obtain ⟨-, hsplit⟩ := disks_change_at_commits twoBytesEach hsignals
  obtain ⟨hreset, -⟩ := hsplit firstOfTwo [.write 8, .reset] rfl 0
  obtain ⟨-, hdirty⟩ := hsplit [] signals rfl 0
  obtain ⟨d', hd', hchanged, -⟩ := hdirty _ rfl
  refine ⟨hsignals, hreset fun between a rest select h => ?_, d', hd', hchanged (.inr ?_)⟩
  · rcases between with - | ⟨b, - | ⟨c, between⟩⟩
    · obtain ⟨rfl, -⟩ := List.cons.inj h
      rw [List.append_nil]
      exact not_commits_half select
    · obtain ⟨-, h⟩ := List.cons.inj h
      obtain ⟨rfl, -⟩ := List.cons.inj h
      exact nofun
    · have hlen := congrArg List.length h
      simp at hlen
  · rw [← Option.some.inj hd']
    decide

end AmstradCpc.Fdc
