/-
Disks in the hands of the controller, and what becomes of them when they are written
back. A disk is made by any run of actions in which all that is put into a drive is
blank. What edits keep, all these disks have; and from each of them a host can have
any track formatted, by going through the commands. So `made_kept_iff` can tell the
limits up to which every disk that is made answers every question for a sector after
it was written back as it did before.
-/
import AmstradCpc.Proofs.Disk.WriteBack
import AmstradCpc.Proofs.Fdc.Formatting

namespace AmstradCpc.Fdc

open Disk Disk.Image

/-! ## Going through a command -/

theorem exists_select {unit : Nat} (h : unit < 4) {side : UInt8} (hs : side ≤ 1) :
    ∃ s : Select, s.unit = unit ∧ s.head = side := by
  have hside : side = 0 ∨ side = 1 := by
    rw [UInt8.le_iff_toNat_le, show (1 : UInt8).toNat = 1 from rfl] at hs
    simp only [← UInt8.toNat_inj, UInt8.toNat_zero, UInt8.toNat_one]
    omega
  have hsel (u : Fin 4) :
      (∃ s : Select, s.unit = u ∧ s.head = 0) ∧ ∃ s : Select, s.unit = u ∧ s.head = 1 :=
    ⟨⟨⟨u.val.toUInt8⟩, by decide +revert⟩, ⟨⟨u.val.toUInt8 + 4⟩, by decide +revert⟩⟩
  rcases hside with rfl | rfl
  · exact (hsel ⟨unit, h⟩).1
  · exact (hsel ⟨unit, h⟩).2

theorem sectorIds_flatMap : ∀ ids : List SectorId, sectorIds (ids.flatMap SectorId.toList) = ids
  | [] => rfl
  | id :: ids => by
    rw [List.flatMap_cons]
    exact congrArg (id :: ·) (sectorIds_flatMap ids)

theorem length_flatMap_toList (ids : List SectorId) :
    (ids.flatMap SectorId.toList).length = ids.length * 4 :=
  length_flatMap_of_length (f := SectorId.toList) (fun _ => rfl) ids

/-- A seek moves the head and leaves all else that a command asks for. -/
theorem performAll_seek {f : Fdc} (hidle : f.phase = .idle) (s : Select) (cylinder : UInt8) :
    let g := f.performAll ([0x0F, s.bits, cylinder].map .write)
    g.phase = .idle ∧ (∀ u, g.disk u = f.disk u) ∧ (∀ u, g.isReady u = f.isReady u) ∧
      (f.isAttached s.unit = true → g.cylinder s.unit = cylinder) := by
  intro g
  obtain ⟨p, hp⟩ := performAll_of_idle hidle (show [0x0F, s.bits, cylinder] ≠ [] by simp)
    (show 3 = (Command.ofByte 0x0F).length by decide)
  have hg : g = ({ f with phase := p } : Fdc).seek s cylinder := hp
  have hspin : g.motor = f.motor ∧ g.spin = f.spin := by
    rw [hg]
    simp only [seek, setCylinder, modifyDrive]
    split <;> exact ⟨rfl, rfl⟩
  have hdisk : ∀ u, g.disk u = f.disk u := fun u => by rw [hg]; exact disk_setCylinder ..
  refine ⟨by rw [hg]; rfl, hdisk, fun u => by simp only [isReady, hspin, hdisk], fun ha => ?_⟩
  obtain ⟨d, hd⟩ := Option.isSome_iff_exists.mp ha
  have hdrive : g.drive s.unit = some { d with cylinder } := by
    rw [hg]
    show (({ f with phase := p } : Fdc).modifyDrive s.unit _).drive s.unit = _
    rw [drive_modifyDrive, if_pos rfl]
    exact congrArg (Option.map _) hd
  simp only [Fdc.cylinder, hdrive, Option.map_some, Option.getD_some]

/-- A ready drive formats the track under its head with the sectors whose IDs are
written after the command. -/
theorem performAll_format {f : Fdc} (hidle : f.phase = .idle) {s : Select} (hr : f.isReady s.unit = true)
    {ids : List SectorId} (hids : ids.length ≤ 255) (filler : UInt8) :
    ∃ bytes : List UInt8, ∀ u, (f.performAll (bytes.map .write)).disk u =
      if s.unit = u then (f.disk u).map (·.formatTrack (f.cylinder s.unit) s.head ids filler)
      else f.disk u := by
  let count := ids.length.toUInt8
  have hcount : count.toNat = ids.length := UInt8.toNat_ofNat_of_lt' (Nat.lt_succ_of_le hids)
  have hlen : (ids.flatMap SectorId.toList).length = 4 * count.toNat := by
    rw [length_flatMap_toList, hcount, Nat.mul_comm]
  refine ⟨s.formatCommand 0x0D 0 count 0 filler ++ ids.flatMap SectorId.toList, fun u => ?_⟩
  rw [performAll_formatCommand_ids hidle hr rfl 0 0 filler hlen, disk_commitFormat, sectorIds_flatMap]

/-! ## Disks in the hands of the controller -/

/-- A disk that a run of actions leaves in a drive, where every disk that the run
puts in is blank. -/
def Made (d : Image) : Prop :=
  ∃ actions : List Action,
    (∀ a ∈ actions, a.Brings fun d => ∃ format, d = Image.formatted format) ∧
      ∃ unit, (initial.performAll actions).disk unit = some d

/-- What all disks have that a run brings in, and edits keep, every disk has that the run leaves in a drive. -/
theorem disk_performAll_has {P : Image → Prop} (edit : ∀ d d', P d → Edit d d' → P d') {actions : List Action}
    (hb : ∀ a ∈ actions, a.Brings P) {unit : Nat} {d : Image}
    (hd : (initial.performAll actions).disk unit = some d) : P d := by
  have hinv := performAll_keeps (P := P)
    (I := fun f => f.phase.Coherent ∧ ∀ unit d, f.disk unit = some d → P d) ?_
    (f := initial) actions ?_ hb
  · exact hinv.2 unit d hd
  · intro f a ⟨hco, hP⟩ ha
    refine ⟨coherent_perform hco a, fun unit d' hd' => ?_⟩
    rcases disk_perform_cases hco hd' with rfl | ⟨d, hd, rfl | he⟩
    · exact ha
    · exact hP unit d' hd
    · exact edit d d' (hP unit d hd) he
  · refine ⟨trivial, fun unit d hd => ?_⟩
    by_cases hlt : unit < 4
    · simp [initial, disk, drive, hlt] at hd
    · simp [initial, disk, drive, hlt] at hd

/-- What blank disks have and edits keep, every disk in the hands of the controller has. -/
theorem Made.has {P : Image → Prop} (blank : ∀ format, P (.formatted format))
    (edit : ∀ d d', P d → Edit d d' → P d') {d : Image} (h : Made d) : P d := by
  obtain ⟨actions, hb, unit, hd⟩ := h
  refine disk_performAll_has edit (fun a ha => (hb a ha).mono fun d hd => ?_) hd
  obtain ⟨format, rfl⟩ := hd
  exact blank format

/-- The two layouts of a blank disk. -/
theorem made_formatted (format : Disk.Format) : Made (.formatted format) := by
  refine ⟨[.attach 0, .insert 0 (.formatted format)], ?_, 0, rfl⟩
  intro a ha
  simp only [List.mem_cons, List.not_mem_nil, or_false] at ha
  rcases ha with rfl | rfl
  · exact trivial
  · exact ⟨format, rfl⟩

/-- **A host can have every track formatted.** From any disk in the hands of the
controller, a seek and a format command lead to that disk with a track formatted on
any cylinder and either side, with up to 255 sectors. -/
theorem Made.formatTrack {d : Image} (h : Made d) (cylinder : UInt8) {side : UInt8} (hside : side ≤ 1)
    {ids : List SectorId} (hids : ids.length ≤ 255) (filler : UInt8) :
    Made (d.formatTrack cylinder side ids filler) := by
  obtain ⟨actions, hb, unit, hd⟩ := h
  let ready := (initial.performAll actions).performAll [.reset, .setMotor true, .clock]
  have hdisk : ready.disk unit = some d := hd
  obtain ⟨drive, hdrive, -⟩ := Option.bind_eq_some_iff.mp hdisk
  obtain ⟨s, rfl, rfl⟩ := exists_select (unit_lt_of_drive hdrive) hside
  have hready : ready.isReady s.unit = true := by
    show (true && decide (spinUp ≤ 1) && (ready.disk s.unit).isSome) = true
    rw [hdisk]
    rfl
  obtain ⟨hidle, hdisk', hready', hcyl⟩ := performAll_seek (f := ready) rfl s cylinder
  obtain ⟨bytes, hbytes⟩ := performAll_format hidle ((hready' _).trans hready) hids filler
  refine ⟨actions ++ [.reset, .setMotor true, .clock] ++ [0x0F, s.bits, cylinder].map .write ++
    bytes.map .write, ?_, s.unit, ?_⟩
  · intro a ha
    simp only [List.mem_append, List.mem_map] at ha
    rcases ha with ((ha | ha) | ⟨v, -, rfl⟩) | ⟨v, -, rfl⟩
    · exact hb a ha
    · simp only [List.mem_cons, List.not_mem_nil, or_false] at ha
      rcases ha with rfl | rfl | rfl <;> exact trivial
    · exact trivial
    · exact trivial
  · rw [performAll_append, performAll_append, performAll_append]
    show (Fdc.performAll (ready.performAll _) _).disk s.unit = _
    rw [hbytes, if_pos rfl, hdisk', hdisk, hcyl (by simp [isAttached, hdrive])]
    rfl

/-! ## Writing back -/

theorem Made.formed {d : Image} (h : Made d) : d.Formed := by
  refine h.has formed_formatted fun d d' hd he => ?_
  cases he with
  | format cylinder side ids filler hside hids => exact hd.formatTrack cylinder hside hids filler
  | write hw =>
    obtain ⟨hsides, hshapes⟩ := shapes_writeSector hw
    exact hd.of_shapes hsides hshapes

theorem made_crowdedDisk : Made crowdedDisk :=
  (made_formatted .data).formatTrack 0 (by decide) (by decide) _

theorem made_heavyDisk : Made heavyDisk :=
  (made_formatted .data).formatTrack 39 (by decide) (by decide) _

theorem made_farDisk : Made farDisk := by
  have hnear : Made nearDisk := (made_formatted .data).formatTrack 204 (by decide) (by decide) _
  exact hnear.formatTrack 205 (by decide) (by decide) _

/-- **The limits of writing back.** Take any limits that blank disks keep and that let
a track have twelve sectors. That every disk in the hands of the controller within
them answers for its sectors after writing back as before holds up to 205 places, 29
sectors of a track and 255 units of a block, and no further: for whichever of the
three goes beyond, there is a disk within the limits that loses a sector. -/
theorem made_kept_iff {n : Limits} (hplaces : 40 ≤ n.places) (hsectors : 12 ≤ n.sectors)
    (hunits : 19 ≤ n.units) :
    (∀ d, Made d → Within n d → Keeps d) ↔
      n.places ≤ 205 ∧ n.sectors ≤ 29 ∧ n.units ≤ 255 := by
  constructor
  · intro h
    refine ⟨Nat.le_of_not_lt fun hlt => ?_, Nat.le_of_not_lt fun hlt => ?_,
      Nat.le_of_not_lt fun hlt => ?_⟩
    · exact not_keeps_farDisk (h farDisk made_farDisk (within_farDisk hlt (by omega) hunits))
    · exact not_keeps_crowdedDisk (h crowdedDisk made_crowdedDisk (within_crowdedDisk hplaces hlt hunits))
    · exact not_keeps_heavyDisk (h heavyDisk made_heavyDisk (within_heavyDisk hplaces hsectors hlt))
  · rintro ⟨hp, hs, hu⟩ d hmade hwithin
    have hblocks : ∀ t ∈ d.tracks, (File.trackBlock t).size ≤ 255 * 0x100 := fun t ht =>
      Nat.le_trans (hwithin.tracks t ht).2 (Nat.mul_le_mul_right _ hu)
    rw [hmade.formed.keeps_iff (Nat.le_trans hwithin.places hp) hblocks]
    intro t ht s hs'
    rw [File.described_eq_self (Nat.le_trans (hwithin.tracks t ht).1 hs)]
    exact ⟨s, hs', rfl, rfl⟩

/-- So not every disk in the hands of the controller is kept. -/
theorem not_all_made_kept : ¬∀ d, Made d → Keeps d := by
  intro h
  have hlimits := (made_kept_iff (n := ⟨512, 255, 8161⟩) (by decide) (by decide) (by decide)).mp
    fun d hmade _ => h d hmade
  exact absurd hlimits (by decide)

theorem made_heavyDisk_not_kept : Made heavyDisk ∧ ¬Keeps heavyDisk :=
  ⟨made_heavyDisk, not_keeps_heavyDisk⟩

end AmstradCpc.Fdc
