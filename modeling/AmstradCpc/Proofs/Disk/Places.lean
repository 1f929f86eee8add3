/-
The tracks that lie at one place of a disk. There can be several, of which the first answers.
Writing to a sector and formatting a track concern one place; at every other the tracks stay, one
after the other as they were. That holds on a disk whose tracks are in any order: formatting sorts
them when it adds one, but the sort is stable, and tracks at the same place count as equal in it.
-/
import AmstradCpc.Proofs.Disk.Sectors

namespace AmstradCpc.Disk

namespace Image

/-- The tracks at a place, in the order in which the disk has them. -/
def tracksAt (d : Image) (cylinder side : UInt8) : List Track := d.tracks.filter (·.liesAt cylinder side)

theorem track_eq_head? (d : Image) (cylinder side : UInt8) :
    d.track cylinder side = (d.tracksAt cylinder side).head? := List.head?_filter.symm

/-- At all places but one `d'` has the tracks of `d`. -/
def SameElsewhere (d d' : Image) (cylinder side : UInt8) : Prop :=
  ∀ c s, (c, s) ≠ (cylinder, side) → d'.tracksAt c s = d.tracksAt c s

theorem SameElsewhere.track {d d' : Image} {cylinder side : UInt8} (h : d.SameElsewhere d' cylinder side)
    {c s : UInt8} (hne : (c, s) ≠ (cylinder, side)) : d'.track c s = d.track c s := by
  rw [track_eq_head?, track_eq_head?, h c s hne]

theorem SameElsewhere.sector {d d' : Image} {cylinder side : UInt8} (h : d.SameElsewhere d' cylinder side)
    {c s : UInt8} (hne : (c, s) ≠ (cylinder, side)) (idCylinder record : UInt8) :
    d'.sector c s idCylinder record = d.sector c s idCylinder record := by
  rw [Image.sector, Image.sector, h.track hne]

/-- A track lies at one place only. -/
theorem liesAt_other {t : Track} {cylinder side c s : UInt8} (h : t.liesAt cylinder side = true)
    (hne : (c, s) ≠ (cylinder, side)) : t.liesAt c s = false := by
  refine Bool.eq_false_iff.mpr fun hl => hne ?_
  rw [← Track.liesAt_iff.mp hl, Track.liesAt_iff.mp h]

/-! ## Writing to a sector -/

theorem sameElsewhere_writeSector {d d' : Image} {cylinder side idCylinder record : UInt8}
    {data : ByteArray} {deleted : Bool}
    (h : d.writeSector cylinder side idCylinder record data deleted = some d') :
    d.SameElsewhere d' cylinder side := by
  simp only [writeSector] at h
  obtain ⟨tracks, hm, rfl⟩ := Option.map_eq_some_iff.mp h
  intro c s hne
  refine filter_modifyFirst?_other (fun t t' ht => ?_) hm
  obtain ⟨hl, ht⟩ := Option.ite_none_right_eq_some.mp ht
  obtain ⟨sectors, -, rfl⟩ := Option.map_eq_some_iff.mp ht
  exact ⟨liesAt_other hl hne, liesAt_other (t := { t with sectors }) hl hne⟩

/-! ## Formatting a track -/

/-- A stable sort leaves items that count as equal in their order. -/
theorem filter_mergeSort {α : Type} {le : α → α → Bool}
    (trans : ∀ a b c, le a b = true → le b c = true → le a c = true)
    (total : ∀ a b, (le a b || le b a) = true) {q : α → Bool}
    (hq : ∀ a b, q a = true → q b = true → le a b = true) (l : List α) :
    (l.mergeSort le).filter q = l.filter q := by
  have hequal : (l.filter q).Pairwise fun a b => le a b = true :=
    List.pairwise_of_forall_mem_list fun a ha b hb =>
      hq a b (List.mem_filter.mp ha).2 (List.mem_filter.mp hb).2
  have hsub := (List.sublist_mergeSort trans total hequal List.filter_sublist).filter q
  rw [List.filter_filter, List.filter_congr fun a _ => Bool.and_self (q a)] at hsub
  have hlen : (l.filter q).length = ((l.mergeSort le).filter q).length :=
    ((List.mergeSort_perm l le).filter q).length_eq.symm
  exact (hsub.eq_of_length hlen).symm

theorem trackBefore_of_liesAt {a b : Track} {c s : UInt8} (ha : a.liesAt c s = true)
    (hb : b.liesAt c s = true) : trackBefore a b = true :=
  trackBefore_iff.mpr fun h => h.place_ne ((Track.liesAt_iff.mp hb).trans (Track.liesAt_iff.mp ha).symm)

section Replace

variable {α : Type} {q : α → Bool} {fresh : α} {l : List α}

/-- Of the items picked, a fresh one takes the place of the first. -/
theorem filter_replaceFirst {l' : List α} (hfresh : q fresh = true)
    (h : modifyFirst? (fun a => if q a then some fresh else none) l = some l') :
    l'.filter q = fresh :: (l.filter q).tail := by
  obtain ⟨before, a, a', after, rfl, hb, ha, rfl⟩ := modifyFirst?_eq_some h
  obtain ⟨hqa, hf⟩ := Option.ite_none_right_eq_some.mp ha
  cases hf
  have hnone : before.filter q = [] := List.filter_eq_nil_iff.mpr fun b hb' => by simpa using hb b hb'
  rw [List.filter_append, List.filter_append, hnone, List.filter_cons_of_pos hfresh,
    List.filter_cons_of_pos hqa]
  rfl

theorem filter_of_replaceFirst_eq_none
    (h : modifyFirst? (fun a => if q a then some fresh else none) l = none) : l.filter q = [] :=
  List.filter_eq_nil_iff.mpr fun a ha => by simpa using modifyFirst?_eq_none.mp h a ha

end Replace

/-- The tracks that formatting leaves at a place: a fresh one takes that of the first track where it
is, or comes alone where there was none. -/
theorem tracksAt_formatTrack (d : Image) (cylinder side : UInt8) (ids : List SectorId) (filler : UInt8)
    (c s : UInt8) : (d.formatTrack cylinder side ids filler).tracksAt c s =
      if (c, s) = (cylinder, side)
      then freshTrack cylinder side ids filler :: (d.tracksAt cylinder side).tail
      else d.tracksAt c s := by
  let fresh := freshTrack cylinder side ids filler
  have hfresh : fresh.liesAt cylinder side = true := Track.liesAt_iff.mpr rfl
  let replace (t : Track) := if t.liesAt cylinder side then some fresh else none
  have hrow : (d.formatTrack cylinder side ids filler).tracks =
      (modifyFirst? replace d.tracks).getD ((d.tracks ++ [fresh]).mergeSort trackBefore) := rfl
  simp only [tracksAt, hrow]
  cases hm : modifyFirst? replace d.tracks with
  | some tracks' =>
    rw [Option.getD_some]
    split
    · next hplace =>
      obtain ⟨rfl, rfl⟩ := Prod.mk.inj hplace
      exact filter_replaceFirst (q := fun t : Track => t.liesAt c s) hfresh hm
    · next hne =>
      refine filter_modifyFirst?_other (fun t t' ht => ?_) hm
      obtain ⟨hl, hf⟩ := Option.ite_none_right_eq_some.mp ht
      cases hf
      exact ⟨liesAt_other hl hne, liesAt_other hfresh hne⟩
  | none =>
    rw [Option.getD_none, filter_mergeSort trackBefore_trans trackBefore_total
      (fun _ _ => trackBefore_of_liesAt), List.filter_append]
    split
    · next hplace =>
      obtain ⟨rfl, rfl⟩ := Prod.mk.inj hplace
      have hnone : d.tracks.filter (·.liesAt c s) = [] := filter_of_replaceFirst_eq_none hm
      rw [hnone, List.nil_append, List.filter_cons_of_pos (p := fun t : Track => t.liesAt c s) hfresh]
      rfl
    · next hne =>
      rw [List.filter_cons_of_neg (by simp [liesAt_other hfresh hne]), List.filter_nil, List.append_nil]

theorem sameElsewhere_formatTrack (d : Image) (cylinder side : UInt8) (ids : List SectorId)
    (filler : UInt8) : d.SameElsewhere (d.formatTrack cylinder side ids filler) cylinder side :=
  fun c s hne => by rw [tracksAt_formatTrack, if_neg hne]

/-- What becomes of a disk `d` when a track is formatted with these sectors. -/
structure FormattedAt (d d' : Image) (cylinder side : UInt8) (sectors : List Sector) : Prop where
  track : ∃ t, d'.track cylinder side = some t ∧ t.sectors = sectors
  elsewhere : ∀ c s, (c, s) ≠ (cylinder, side) → d'.track c s = d.track c s ∧
    ∀ idCylinder record, d'.sector c s idCylinder record = d.sector c s idCylinder record
  sides : d'.sides.toNat = max d.sides.toNat (side.toNat + 1)
  dirty : d'.dirty = true
  ordered : d.tracks.Pairwise Track.Before → d'.tracks.Pairwise Track.Before

theorem formattedAt_formatTrack (d : Image) (cylinder : UInt8) {side : UInt8} (hs : canFormat side = true)
    (ids : List SectorId) (filler : UInt8) :
    d.FormattedAt (d.formatTrack cylinder side ids filler) cylinder side (ids.map (blankSector filler)) where
  track := by
    refine ⟨freshTrack cylinder side ids filler, ?_, rfl⟩
    rw [track_eq_head?, tracksAt_formatTrack, if_pos rfl]
    rfl
  elsewhere c s hne :=
    have hsame := sameElsewhere_formatTrack d cylinder side ids filler
    ⟨hsame.track hne, hsame.sector hne⟩
  sides := toNat_sides_formatTrack d cylinder hs ids filler
  dirty := rfl
  ordered h := (tracks_formatTrack h cylinder side ids filler).1

/-- What becomes of a disk `d` when the tracks at one place are changed. -/
structure ChangedAt (d d' : Image) (cylinder side : UInt8) : Prop where
  elsewhere : d.SameElsewhere d' cylinder side
  sides : d'.sides = d.sides ∨ d'.sides.toNat = max d.sides.toNat (side.toNat + 1)
  dirty : d'.dirty = true

theorem changedAt_writeSector {d d' : Image} {cylinder side idCylinder record : UInt8} {data : ByteArray}
    {deleted : Bool} (h : d.writeSector cylinder side idCylinder record data deleted = some d') :
    d.ChangedAt d' cylinder side := by
  have helsewhere := sameElsewhere_writeSector h
  obtain ⟨tracks, -, rfl⟩ := Option.map_eq_some_iff.mp h
  exact ⟨helsewhere, .inl rfl, rfl⟩

theorem changedAt_formatTrack (d : Image) (cylinder : UInt8) {side : UInt8} (hs : canFormat side = true)
    (ids : List SectorId) (filler : UInt8) :
    d.ChangedAt (d.formatTrack cylinder side ids filler) cylinder side :=
  ⟨sameElsewhere_formatTrack d cylinder side ids filler, .inr (toNat_sides_formatTrack d cylinder hs ids filler), rfl⟩

end Image

end AmstradCpc.Disk
