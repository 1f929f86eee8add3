/-
Sectors that are hidden. A file may have several tracks that say that they lie at the same place. Whoever asks
for a sector is answered by the first of them; a write goes on to the others, so it can reach a sector that
cannot be read. `writesAsAsked_iff` says that this is all that keeps writing to sectors and asking for them from
agreeing. Formatting and writing bring no second track to a place, so on disks that come without one nothing is
ever hidden.
-/
import AmstradCpc.Proofs.Disk.Places
import AmstradCpc.Proofs.Disk.Reread
import AmstradCpc.Proofs.Fdc.ReadBack
import AmstradCpc.Proofs.Fdc.WriteBack
import AmstradCpc.Proofs.Word

namespace AmstradCpc

namespace Disk

/-- What becomes of a sector that is written to: its first bytes are the data, as many of them as it has, bit 6
of its second status byte is the mark, and all else is as it was. -/
structure Sector.RewrittenAs (s s' : Sector) (data : ByteArray) (deleted : Bool) : Prop where
  id : s'.id = s.id
  status1 : s'.status1 = s.status1
  mark : s'.deleted = deleted
  status2 : s'.status2 &&& ~~~deletedMark = s.status2 &&& ~~~deletedMark
  size : s'.data.size = s.data.size
  bytes : ∀ i < s.data.size, byteAt s'.data i = if i < data.size then byteAt data i else byteAt s.data i

theorem Sector.rewrittenAs_overwrite (s : Sector) (data : ByteArray) (deleted : Bool) :
    s.RewrittenAs (s.overwrite data deleted) data deleted where
  id := rfl
  status1 := rfl
  mark := Fdc.deleted_overwrite s data deleted
  status2 := by
    have hor : ∀ v : UInt8, (v ||| deletedMark) &&& ~~~deletedMark = v &&& ~~~deletedMark :=
      forall_byte (by decide +kernel)
    simp only [Sector.overwrite]
    cases deleted
    · rw [if_neg (by decide), UInt8.and_assoc, UInt8.and_self]
    · rw [if_pos rfl, hor]
  size := s.size_overwrite data deleted
  bytes _ h := byteAt_overwriteStart h

namespace Image

/-- There is no answer for a sector, because the tracks that have it are behind another one at their place. -/
def Hidden (d : Image) (cylinder side idCylinder record : UInt8) : Prop :=
  d.sector cylinder side idCylinder record = none ∧
    ∃ t ∈ d.tracksAt cylinder side, ∃ s ∈ t.sectors, s.answersTo idCylinder record = true

/-- Writes to a sector, and tells whether it was there. -/
def tryWrite (d : Image) (cylinder side idCylinder record : UInt8) (data : ByteArray) (deleted : Bool) :
    Bool × Image :=
  match d.writeSector cylinder side idCylinder record data deleted with
  | some d' => (true, d')
  | none => (false, d)

/-- A write to a sector does what one who asks for sectors expects of it. -/
structure WritesAsAsked (d : Image) (cylinder side idCylinder record : UInt8) (data : ByteArray)
    (deleted : Bool) (success : Bool) (d' : Image) : Prop where
  succeeds : success = true ↔ (d.sector cylinder side idCylinder record).isSome = true
  written : success = true → ∃ s s', d.sector cylinder side idCylinder record = some s ∧
    d'.sector cylinder side idCylinder record = some s' ∧ s.RewrittenAs s' data deleted
  others : success = true → ∀ c sd c' r, (c, sd, c', r) ≠ (cylinder, side, idCylinder, record) →
    d'.sector c sd c' r = d.sector c sd c' r
  refused : success = false → d' = d

variable {d : Image} {cylinder side idCylinder record : UInt8} {data : ByteArray} {deleted : Bool}

theorem isSome_modifyFirst?_iff {α : Type} {f : α → Option α} {l : List α} :
    (modifyFirst? f l).isSome = true ↔ ∃ a ∈ l, (f a).isSome = true := by
  rw [← Option.ne_none_iff_isSome, ne_eq, modifyFirst?_eq_none, not_forall]
  simp only [not_forall, ← ne_eq, Option.ne_none_iff_isSome, exists_prop]

/-- A write finds a sector if any of the tracks at its place has it. -/
theorem isSome_writeSector_iff :
    (d.writeSector cylinder side idCylinder record data deleted).isSome = true ↔
      ∃ t ∈ d.tracksAt cylinder side, ∃ s ∈ t.sectors, s.answersTo idCylinder record = true := by
  simp only [writeSector, Option.isSome_map, isSome_modifyFirst?_iff, tracksAt, List.mem_filter, and_assoc]
  refine exists_congr fun t => and_congr_right fun _ => ?_
  cases t.liesAt cylinder side with
  | false => simp
  | true => simp [isSome_modifyFirst?_iff, Option.isSome_map]

theorem tryWrite_of_some {d' : Image} (h : d.writeSector cylinder side idCylinder record data deleted = some d') :
    d.tryWrite cylinder side idCylinder record data deleted = (true, d') := by
  rw [tryWrite, h]

theorem tryWrite_of_none (h : d.writeSector cylinder side idCylinder record data deleted = none) :
    d.tryWrite cylinder side idCylinder record data deleted = (false, d) := by
  rw [tryWrite, h]

/-- A write answers as asking does, unless the sector is hidden. -/
theorem writesAsAsked_tryWrite_iff :
    d.WritesAsAsked cylinder side idCylinder record data deleted
        (d.tryWrite cylinder side idCylinder record data deleted).1
        (d.tryWrite cylinder side idCylinder record data deleted).2 ↔
      ¬d.Hidden cylinder side idCylinder record := by
  constructor
  · rintro h ⟨hnone, hbehind⟩
    have hfound : (d.writeSector cylinder side idCylinder record data deleted).isSome = true :=
      isSome_writeSector_iff.mpr hbehind
    obtain ⟨d', hw⟩ := Option.isSome_iff_exists.mp hfound
    rw [tryWrite_of_some hw] at h
    have hsome := h.succeeds.mp rfl
    rw [hnone] at hsome
    cases hsome
  · intro hseen
    cases hs : d.sector cylinder side idCylinder record with
    | some s =>
      obtain ⟨d', hw, hwritten, -⟩ := sector_writeSector hs data deleted
      rw [tryWrite_of_some hw]
      exact ⟨iff_of_true rfl (by rw [hs]; rfl),
        fun _ => ⟨s, _, hs, hwritten, s.rewrittenAs_overwrite data deleted⟩,
        fun _ c sd c' r hne => sector_writeSector_other hw hne, nofun⟩
    | none =>
      have hw : d.writeSector cylinder side idCylinder record data deleted = none := by
        refine Option.not_isSome_iff_eq_none.mp fun hsome => ?_
        exact hseen ⟨hs, isSome_writeSector_iff.mp hsome⟩
      rw [tryWrite_of_none hw]
      exact ⟨iff_of_false nofun (by rw [hs]; nofun), nofun, nofun, fun _ => rfl⟩

/-! ## Disks with one track at each place -/

/-- At no place are there several tracks. -/
def OneAtEach (d : Image) : Prop := ∀ cylinder side, (d.tracksAt cylinder side).length ≤ 1

theorem OneAtEach.not_hidden (h : d.OneAtEach) (cylinder side idCylinder record : UInt8) :
    ¬d.Hidden cylinder side idCylinder record := by
  rintro ⟨hnone, t, ht, s, hs, hanswers⟩
  obtain ⟨u, hu⟩ := List.length_eq_one_iff.mp (Nat.le_antisymm (h cylinder side) (List.length_pos_of_mem ht))
  obtain rfl : t = u := List.mem_singleton.mp (hu ▸ ht)
  rw [sector, track_eq_head?, hu] at hnone
  exact absurd hanswers (List.find?_eq_none.mp hnone s hs)

/-- Tracks in order are each at a place of their own. -/
theorem oneAtEach_of_before (h : d.tracks.Pairwise Track.Before) : d.OneAtEach := by
  intro cylinder side
  have hbefore : (d.tracksAt cylinder side).Pairwise Track.Before := h.sublist List.filter_sublist
  have hplace : ∀ t ∈ d.tracksAt cylinder side, t.place = (cylinder, side) :=
    fun t ht => Track.liesAt_iff.mp (List.mem_filter.mp ht).2
  match hrow : d.tracksAt cylinder side with
  | [] => exact Nat.zero_le 1
  | [t] => exact Nat.le_refl 1
  | t :: u :: rest =>
    rw [hrow] at hbefore hplace
    have htu : t.Before u := List.rel_of_pairwise_cons hbefore List.mem_cons_self
    exact absurd ((hplace t (by simp)).trans (hplace u (by simp)).symm) htu.place_ne

theorem OneAtEach.formatTrack (h : d.OneAtEach) (cylinder side : UInt8) (ids : List SectorId) (filler : UInt8) :
    (d.formatTrack cylinder side ids filler).OneAtEach := by
  intro c s
  rw [tracksAt_formatTrack]
  split
  · have := h cylinder side
    rw [List.length_cons, List.length_tail]
    omega
  · exact h c s

theorem length_tracksAt (d : Image) (cylinder side : UInt8) :
    (d.tracksAt cylinder side).length = (d.tracks.map Track.place).count (cylinder, side) := by
  rw [tracksAt, ← List.countP_eq_length_filter, List.count, List.countP_map]
  refine List.countP_congr fun t _ => ?_
  rw [Track.liesAt_iff, Function.comp_apply, beq_iff_eq]

theorem OneAtEach.writeSector {d' : Image} (h : d.OneAtEach)
    (hw : d.writeSector cylinder side idCylinder record data deleted = some d') : d'.OneAtEach := by
  have hplaces : d'.tracks.map Track.place = d.tracks.map Track.place := by
    have hshapes := congrArg (List.map Prod.fst) (shapes_writeSector hw).2
    rwa [List.map_map, List.map_map] at hshapes
  intro c s
  rw [length_tracksAt, hplaces, ← length_tracksAt]
  exact h c s

/-! ## A place with two tracks -/

/-- A track without sectors. -/
def emptyTrack : Track := ⟨0, 0, 0, 0, []⟩

/-- This track, and behind it another one at the same place, with one sector. -/
def doubledDisk : Image := ⟨1, [emptyTrack, bareTrack 0], false⟩

/-- The file of this disk. -/
def doubledFile : ByteArray := rowFile [emptyTrack] (bareTrack 0)

theorem parse_doubledFile : Image.parse doubledFile = .ok doubledDisk := by
  refine parse_rowFile (by decide) (fun t ht => ?_) (describable_bareTrack 0)
  obtain rfl := List.mem_singleton.mp ht
  have hsize : (File.trackBlock emptyTrack).size = (0 + 1) * 0x100 := File.size_trackBlock_of_units rfl
  exact ⟨⟨Nat.zero_le _, nofun⟩, by rw [hsize]; decide⟩

end Image

end Disk

namespace Fdc

open Disk Disk.Image

/-- **Writing to a sector agrees with asking for it unless the sector is hidden.** That holds of every disk,
every request and all data: the write succeeds if there is an answer for the sector, the same sector answers then
with the new data, no other answer changes, and a write that fails leaves the disk alone; a hidden sector is
written to although there is no answer for it. On disks that the controller has from files with at most one
track at each place, whatever was done to them, nothing is hidden. -/
theorem writesAsAsked_iff (d : Image) (cylinder side idCylinder record : UInt8) (data : ByteArray)
    (deleted : Bool) :
    (d.WritesAsAsked cylinder side idCylinder record data deleted
        (d.tryWrite cylinder side idCylinder record data deleted).1
        (d.tryWrite cylinder side idCylinder record data deleted).2 ↔
      ¬d.Hidden cylinder side idCylinder record) ∧
    ∀ (actions : List Action) (unit : Nat), (∀ a ∈ actions, a.Brings OneAtEach) →
      (initial.performAll actions).disk unit = some d → ¬d.Hidden cylinder side idCylinder record := by
  refine ⟨writesAsAsked_tryWrite_iff, fun actions unit hb hd => ?_⟩
  have hone : d.OneAtEach := disk_performAll_has (fun d d' h he => ?_) hb hd
  · exact hone.not_hidden cylinder side idCylinder record
  · cases he with
    | format cylinder side ids filler => exact h.formatTrack cylinder side ids filler
    | write hw => exact h.writeSector hw

/-- On a blank disk in a drive all sectors are seen, so writing agrees with asking. -/
theorem writesAsAsked_formatted :
    let actions : List Action := [.attach 0, .insert 0 (.formatted .data)]
    let d := Image.formatted .data
    (∀ a ∈ actions, a.Brings OneAtEach) ∧ (initial.performAll actions).disk 0 = some d ∧
      ¬d.Hidden 0 0 0 0xC1 ∧
      d.WritesAsAsked 0 0 0 0xC1 (byteList [0x42]) true (d.tryWrite 0 0 0 0xC1 (byteList [0x42]) true).1
        (d.tryWrite 0 0 0 0xC1 (byteList [0x42]) true).2 := by
  intro actions d
  have hone : d.OneAtEach := oneAtEach_of_before (ordered_formatted .data).tracks
  have hb : ∀ a ∈ actions, a.Brings OneAtEach :=
    List.forall_mem_cons.mpr ⟨trivial, List.forall_mem_singleton.mpr hone⟩
  obtain ⟨hiff, hreached⟩ := writesAsAsked_iff d 0 0 0 0xC1 (byteList [0x42]) true
  have hseen := hreached actions 0 hb rfl
  exact ⟨hb, rfl, hseen, hiff.mpr hseen⟩

/-- Writing to the sector of the second track succeeds, although there is no answer for it. -/
theorem not_writesAsAsked_doubledDisk :
    Image.parse doubledFile = .ok doubledDisk ∧
    let (success, d') := doubledDisk.tryWrite 0 0 0 1 (byteList [0x42]) false
    doubledDisk.sector 0 0 0 1 = none ∧ success = true ∧ d'.dirty = true ∧
      ¬doubledDisk.WritesAsAsked 0 0 0 1 (byteList [0x42]) false success d' := by
  refine ⟨parse_doubledFile, rfl, rfl, rfl, fun h => ?_⟩
  have hsome := h.succeeds.mp rfl
  cases hsome

end Fdc

end AmstradCpc
