/-
What becomes of the disks in the drives. An action leaves the disk in a drive as
it is, takes it out, puts another in its place, or edits it as one of two commands
does: by formatting a track or by writing a sector. So what these two keep is kept
of every disk that the controller comes to have.
-/
import AmstradCpc.Proofs.Fdc.Steps
import AmstradCpc.Proofs.Disk.Order

namespace AmstradCpc.Fdc

open Disk (Image SectorId)

/-! ## Drives -/

theorem drive_setDrive (f : Fdc) (unit u : Nat) (d : Option Drive) :
    (f.setDrive unit d).drive u = if unit = u ∧ u < 4 then d else f.drive u := by
  simp only [drive, setDrive, Vector.getElem?_setIfInBounds]
  split
  · next h =>
    subst h
    by_cases hu : unit < 4
    · simp [hu]
    · simp [hu]
  · next h => simp [h]

theorem unit_lt_of_drive {f : Fdc} {unit : Nat} {d : Drive} (h : f.drive unit = some d) : unit < 4 := by
  refine Nat.lt_of_not_le fun hle => ?_
  simp [drive, Vector.getElem?_eq_none hle] at h

theorem drive_modifyDrive (f : Fdc) (unit u : Nat) (change : Drive → Drive) :
    (f.modifyDrive unit change).drive u = if unit = u then (f.drive u).map change else f.drive u := by
  simp only [modifyDrive]
  split
  · next d hd =>
    have := unit_lt_of_drive hd
    rw [drive_setDrive]
    by_cases hu : unit = u
    · subst hu
      simp [hd, this]
    · simp [hu]
  · next hn =>
    by_cases hu : unit = u
    · subst hu
      simp [hn]
    · simp [hu]

theorem disk_modifyDisk (f : Fdc) (unit u : Nat) (change : Image → Image) :
    (f.modifyDisk unit change).disk u = if unit = u then (f.disk u).map change else f.disk u := by
  simp only [disk, modifyDisk, drive_modifyDrive]
  split
  · cases f.drive u <;> rfl
  · rfl

theorem disk_of_drives {f g : Fdc} (h : g.drives = f.drives) (unit : Nat) : g.disk unit = f.disk unit := by
  simp only [disk, drive, h]

@[simp] theorem disk_setCylinder (f : Fdc) (unit u : Nat) (cylinder : UInt8) :
    (f.setCylinder unit cylinder).disk u = f.disk u := by
  simp only [disk, setCylinder, drive_modifyDrive]
  split
  · cases f.drive u <;> rfl
  · rfl

theorem isAttached_modifyDrive (f : Fdc) (unit u : Nat) (change : Drive → Drive) :
    (f.modifyDrive unit change).isAttached u = f.isAttached u := by
  simp only [isAttached, drive_modifyDrive]
  split
  · exact Option.isSome_map
  · rfl

theorem isAttached_setCylinder (f : Fdc) (unit u : Nat) (cylinder : UInt8) :
    (f.setCylinder unit cylinder).isAttached u = f.isAttached u := isAttached_modifyDrive ..

theorem cylinder_setCylinder (f : Fdc) (unit u : Nat) (c : UInt8) :
    (f.setCylinder unit c).cylinder u = if unit = u ∧ f.isAttached u = true then c else f.cylinder u := by
  simp only [cylinder, isAttached, setCylinder, drive_modifyDrive]
  by_cases hu : unit = u
  · obtain hdrive | ⟨d, hdrive⟩ := Option.eq_none_or_eq_some (f.drive u)
    · simp [hu, hdrive]
    · simp [hu, hdrive]
  · simp [hu]

theorem cylinder_of_not_attached {f : Fdc} {unit : Nat} (h : f.isAttached unit = false) :
    f.cylinder unit = 0 := by
  rw [cylinder, Option.isNone_iff_eq_none.mp (Option.isSome_eq_false_iff.mp h)]
  rfl

theorem disk_eject (f : Fdc) (unit u : Nat) :
    (f.eject unit).disk u = if unit = u then none else f.disk u := by
  simp only [disk, eject, drive_modifyDrive]
  split
  · cases f.drive u <;> rfl
  · rfl

theorem disk_of_insert {f g : Fdc} {unit : Nat} {image : Image} (h : f.insert unit image = some g) (u : Nat) :
    g.disk u = if unit = u then some image else f.disk u := by
  obtain ⟨old, hold, rfl⟩ := Option.map_eq_some_iff.mp h
  have hlt := unit_lt_of_drive hold
  rw [disk, drive_setDrive]
  by_cases hu : unit = u
  · rw [if_pos ⟨hu, hu ▸ hlt⟩, if_pos hu]
    rfl
  · rw [if_neg (fun h => hu h.1), if_neg hu]
    rfl

/-- A drive that is ready has a disk in it. -/
theorem exists_disk_of_ready {f : Fdc} {unit : Nat} (h : f.isReady unit = true) : ∃ d, f.disk unit = some d := by
  simp only [isReady, Bool.and_eq_true] at h
  exact Option.isSome_iff_exists.mp h.2

/-! ## Edits -/

/-- What a command does to a disk: it formats a track on one of two sides, with up
to 255 sectors, or writes to a sector. -/
inductive Edit (d : Image) : Image → Prop
  | format (cylinder side : UInt8) (ids : List SectorId) (filler : UInt8) (hside : side ≤ 1)
      (hids : ids.length ≤ 255) : Edit d (d.formatTrack cylinder side ids filler)
  | write {d' : Image} {cylinder side idCylinder record : UInt8} {data : ByteArray} {deleted : Bool}
      (h : d.writeSector cylinder side idCylinder record data deleted = some d') : Edit d d'

theorem Edit.dirty {d d' : Image} (h : Edit d d') : d'.dirty = true := by
  cases h with
  | format => rfl
  | write h =>
    obtain ⟨tracks, -, rfl⟩ := Option.map_eq_some_iff.mp h
    rfl

/-- The disks of `g` are those of `f`, as they were or after an edit. -/
def EditsDisks (f g : Fdc) : Prop :=
  ∀ unit d', g.disk unit = some d' → ∃ d, f.disk unit = some d ∧ (d' = d ∨ Edit d d')

theorem EditsDisks.of_eq {f g : Fdc} (h : ∀ unit, g.disk unit = f.disk unit) : EditsDisks f g :=
  fun unit d' hd => ⟨d', h unit ▸ hd, .inl rfl⟩

theorem EditsDisks.of_drives {f g : Fdc} (h : g.drives = f.drives) : EditsDisks f g :=
  .of_eq (disk_of_drives h)

theorem Select.head_le (s : Select) : s.head ≤ 1 := by
  rw [UInt8.le_iff_toNat_le, Select.head, UInt8.toNat_and]
  exact Nat.and_le_right

theorem length_sectorIds : ∀ bytes : List UInt8, (sectorIds bytes).length = bytes.length / 4
  | [] | [_] | [_, _] | [_, _, _] => by simp [sectorIds]
  | _ :: _ :: _ :: _ :: rest => by
    simp only [sectorIds, List.length_cons, length_sectorIds rest]
    omega

theorem disk_commitFormat (f : Fdc) (select : Select) (filler : UInt8) (received : List UInt8) (u : Nat) :
    (f.commitFormat select filler received).disk u =
      if select.unit = u then
        (f.disk u).map (·.formatTrack (f.cylinder select.unit) select.head (sectorIds received) filler)
      else f.disk u := disk_modifyDisk ..

theorem editsDisks_commitFormat (f : Fdc) (select : Select) (filler : UInt8) {received : List UInt8}
    (h : received.length < 4 * 256) : EditsDisks f (f.commitFormat select filler received) := by
  intro unit d' hd'
  rw [disk_commitFormat] at hd'
  split at hd'
  · obtain ⟨d, hd, rfl⟩ := Option.map_eq_some_iff.mp hd'
    have hids : (sectorIds received).length ≤ 255 := by
      rw [length_sectorIds]
      omega
    exact ⟨d, hd, .inr (.format _ _ _ _ select.head_le hids)⟩
  · exact ⟨d', hd', .inl rfl⟩

theorem drives_beginWrite (f : Fdc) (t : Transfer) : (f.beginWrite t).drives = f.drives := by
  simp only [beginWrite]
  split <;> rfl

/-- The disk that a sector is written on is written where it has that sector. -/
theorem disk_commitSector (f : Fdc) (t : Transfer) (data : ByteArray) (u : Nat) :
    (f.commitSector t data).disk u =
      if t.select.unit = u then
        (f.disk u).map fun d => (d.writeSector (f.cylinder t.select.unit) t.select.head t.cylinder t.record
          data t.deleted).getD d
      else f.disk u := by
  simp only [commitSector]
  split
  · next hnone =>
    show f.disk u = _
    split
    · next hu =>
      subst hu
      cases hd : f.disk t.select.unit with
      | none => rfl
      | some d =>
        have hfailed := Option.bind_eq_none_iff.mp hnone d hd
        rw [Option.map_some, hfailed, Option.getD_none]
    · rfl
  · next disk hw =>
    obtain ⟨d, hd, hw⟩ := Option.bind_eq_some_iff.mp hw
    have hdisk : (f.modifyDisk t.select.unit fun _ => disk).disk u = if t.select.unit = u then
        (f.disk u).map fun d => (d.writeSector (f.cylinder t.select.unit) t.select.head t.cylinder t.record
          data t.deleted).getD d
        else f.disk u := by
      rw [disk_modifyDisk]
      split
      · next hu =>
        subst hu
        rw [hd, Option.map_some, Option.map_some, hw, Option.getD_some]
      · rfl
    split
    · exact hdisk
    · rwa [disk_of_drives (drives_beginWrite _ _)]

theorem editsDisks_commitSector (f : Fdc) (t : Transfer) (data : ByteArray) :
    EditsDisks f (f.commitSector t data) := by
  intro unit d' hd'
  rw [disk_commitSector] at hd'
  split at hd'
  · obtain ⟨d, hd, rfl⟩ := Option.map_eq_some_iff.mp hd'
    refine ⟨d, hd, ?_⟩
    cases hw : d.writeSector (f.cylinder t.select.unit) t.select.head t.cylinder t.record data t.deleted with
    | none => exact .inl rfl
    | some d' => exact .inr (.write hw)
  · exact ⟨d', hd', .inl rfl⟩

/-- Only seeking and formatting change a drive at once; a write does so when the data of a
sector is complete. -/
theorem drives_run {request : Request} (f : Fdc) (hs : ∀ select cylinder, request ≠ .seek select cylinder)
    (hf : ∀ select sizeCode count filler, request ≠ .format select sizeCode count filler) :
    (f.run request).drives = f.drives := by
  by_cases hsense : request = .senseInterrupt
  · subst hsense
    simp only [run, senseInterrupt]
    split <;> rfl
  · obtain ⟨p, n, hrun⟩ := exists_run_eq f hs hf hsense
    rw [hrun]

theorem editsDisks_run (f : Fdc) (request : Request) : EditsDisks f (f.run request) := by
  cases request with
  | seek select cylinder => exact .of_eq fun unit => disk_setCylinder ..
  | format select sizeCode count filler =>
    simp only [run, formatTrack]
    split
    · split
      · exact editsDisks_commitFormat f select filler (by simp)
      · exact .of_drives rfl
    · exact .of_drives rfl
  | specify | senseDrive | senseInterrupt | read | readTrack | write | readId | version | invalid =>
    exact .of_drives (drives_run f (by simp) (by simp))

theorem editsDisks_write {f : Fdc} (h : f.phase.Coherent) (v : UInt8) : EditsDisks f (f.write v) := by
  have hw := write_written h v
  generalize f.write v = g at hw
  cases hw with
  | command => exact editsDisks_run _ _
  | sector => exact editsDisks_commitSector { f with phase := .idle } _ _
  | @track select count filler received _ hlen =>
    have hcount := count.toNat_lt
    exact editsDisks_commitFormat f select filler (by simp; omega)
  | commandByte | sectorByte | trackByte | lost => exact .of_drives rfl

theorem drives_read (f : Fdc) : f.read.2.drives = f.drives := by
  obtain ⟨p, hread, -⟩ := exists_read_eq f
  rw [hread]

theorem editsDisks_read (f : Fdc) : EditsDisks f f.read.2 := .of_drives (drives_read f)

/-! ## Which drives there are, and which of them hold a disk -/

/-- Something about a drive that depends neither on where the head stands nor on what is on the disk. -/
structure Lasting {β : Type} (φ : Option Drive → β) : Prop where
  moved : ∀ drive cylinder, φ (drive.map ({ · with cylinder })) = φ drive
  edited : ∀ drive change, φ (drive.map fun d => { d with disk := d.disk.map change }) = φ drive

namespace Lasting

variable {β : Type} {φ : Option Drive → β}

theorem of_drives {f g : Fdc} (h : g.drives = f.drives) (u : Nat) : φ (g.drive u) = φ (f.drive u) := by
  rw [drive, drive, h]

theorem setCylinder (hφ : Lasting φ) (f : Fdc) (unit u : Nat) (cylinder : UInt8) :
    φ ((f.setCylinder unit cylinder).drive u) = φ (f.drive u) := by
  rw [Fdc.setCylinder, drive_modifyDrive]
  split
  · exact hφ.moved ..
  · rfl

theorem modifyDisk (hφ : Lasting φ) (f : Fdc) (unit u : Nat) (change : Image → Image) :
    φ ((f.modifyDisk unit change).drive u) = φ (f.drive u) := by
  rw [Fdc.modifyDisk, drive_modifyDrive]
  split
  · exact hφ.edited ..
  · rfl

theorem commitSector (hφ : Lasting φ) (f : Fdc) (t : Transfer) (data : ByteArray) (u : Nat) :
    φ ((f.commitSector t data).drive u) = φ (f.drive u) := by
  simp only [Fdc.commitSector]
  split
  · rfl
  · split
    · exact hφ.modifyDisk ..
    · exact (of_drives (φ := φ) (drives_beginWrite _ _) u).trans (hφ.modifyDisk ..)

theorem run (hφ : Lasting φ) (f : Fdc) (request : Request) (u : Nat) :
    φ ((f.run request).drive u) = φ (f.drive u) := by
  cases request with
  | seek select cylinder => exact hφ.setCylinder f select.unit u cylinder
  | format select sizeCode count filler =>
    simp only [Fdc.run, formatTrack]
    split
    · split
      · exact hφ.modifyDisk ..
      · rfl
    · rfl
  | specify | senseDrive | senseInterrupt | read | readTrack | write | readId | version | invalid =>
    exact of_drives (drives_run f (by simp) (by simp)) u

/-- No access to the data register changes it. -/
theorem write (hφ : Lasting φ) (f : Fdc) (v : UInt8) (u : Nat) : φ ((f.write v).drive u) = φ (f.drive u) := by
  cases hp : f.phase with
  | idle | command =>
    simp only [Fdc.write, hp, receiveCommand]
    split
    · exact hφ.run ..
    · rfl
  | reading | result => simp only [Fdc.write, hp]
  | writing t received =>
    simp only [Fdc.write, hp]
    split
    · exact hφ.commitSector { f with phase := .idle } t _ u
    · rfl
  | formatting select count filler received =>
    simp only [Fdc.write, hp]
    split
    · exact hφ.modifyDisk ..
    · rfl

end Lasting

theorem lasting_isSome_disk : Lasting fun drive => (drive.bind (·.disk)).isSome where
  moved drive _ := by cases drive <;> rfl
  edited drive _ := by cases drive <;> simp

theorem lasting_isSome : Lasting Option.isSome where
  moved _ _ := Option.isSome_map
  edited _ _ := Option.isSome_map

/-- No access to the data register puts a disk into a drive or takes one out. -/
theorem isSome_disk_write (f : Fdc) (v : UInt8) (u : Nat) :
    ((f.write v).disk u).isSome = (f.disk u).isSome := lasting_isSome_disk.write f v u

theorem isAttached_insert {f g : Fdc} {unit : Nat} {image : Image} (h : f.insert unit image = some g) (u : Nat) :
    g.isAttached u = f.isAttached u := by
  obtain ⟨old, hold, rfl⟩ := Option.map_eq_some_iff.mp h
  rw [isAttached, drive_setDrive]
  split
  · next hu => rw [isAttached, ← hu.1, hold, Option.isSome_some, Option.isSome_some]
  · rfl

/-- Only attaching and detaching change which drives there are. -/
theorem isAttached_perform (f : Fdc) {a : Action} (ha : ¬a.Wires) (u : Nat) :
    (f.perform a).isAttached u = f.isAttached u := by
  cases a with
  | write v => exact lasting_isSome.write f v u
  | read => exact Lasting.of_drives (drives_read f) u
  | setMotor | clock | reset => rfl
  | attach | detach => exact absurd trivial ha
  | insert unit disk =>
    simp only [perform]
    cases hinsert : f.insert unit disk with
    | none => rfl
    | some g => exact isAttached_insert hinsert u
  | eject unit => exact isAttached_modifyDrive ..
  | setCylinder unit cylinder => exact isAttached_modifyDrive ..

theorem isAttached_performAll (f : Fdc) (actions : List Action) (h : ∀ a ∈ actions, ¬a.Wires) (u : Nat) :
    (f.performAll actions).isAttached u = f.isAttached u := by
  induction actions generalizing f with
  | nil => rfl
  | cons a actions ih =>
    exact (ih (f.perform a) fun b hb => h b (.tail _ hb)).trans (isAttached_perform f (h a (.head _)) u)

/-- What an action can do to the disks: one that is in a drive afterwards was put
there by the action, or was there before, as it is or before an edit. -/
theorem disk_perform_cases {f : Fdc} {a : Action} {unit : Nat} {d' : Image} (h : f.phase.Coherent)
    (hd : (f.perform a).disk unit = some d') :
    a = .insert unit d' ∨ ∃ d, f.disk unit = some d ∧ (d' = d ∨ Edit d d') := by
  cases a with
  | write v => exact .inr (editsDisks_write h v unit d' hd)
  | read => exact .inr (editsDisks_read f unit d' hd)
  | setMotor | clock | reset => exact .inr ⟨d', hd, .inl rfl⟩
  | attach u =>
    simp only [perform, attach] at hd
    split at hd
    · exact .inr ⟨d', hd, .inl rfl⟩
    · simp only [disk, drive_setDrive] at hd
      split at hd
      · cases hd
      · exact .inr ⟨d', hd, .inl rfl⟩
  | detach u =>
    simp only [perform, detach, disk, drive_setDrive] at hd
    split at hd
    · cases hd
    · exact .inr ⟨d', hd, .inl rfl⟩
  | insert u disk =>
    simp only [perform, insert] at hd
    cases hu : f.drive u with
    | none =>
      rw [hu] at hd
      exact .inr ⟨d', hd, .inl rfl⟩
    | some d =>
      simp only [hu, Option.map_some, Option.getD_some, Fdc.disk, drive_setDrive] at hd
      split at hd
      · next hlt =>
        cases hd
        rw [hlt.1]
        exact .inl rfl
      · exact .inr ⟨d', hd, .inl rfl⟩
  | eject u =>
    simp only [perform, eject, disk, drive_modifyDrive] at hd
    split at hd
    · cases hu : f.drive unit <;> simp [hu] at hd
    · exact .inr ⟨d', hd, .inl rfl⟩
  | setCylinder u cylinder =>
    rw [perform, disk_setCylinder] at hd
    exact .inr ⟨d', hd, .inl rfl⟩

end AmstradCpc.Fdc
