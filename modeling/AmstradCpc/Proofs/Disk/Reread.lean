/-
What becomes of a disk that was read from a file when it is written back. A track says
itself on which cylinder and side it lies, and the reader takes its word, wherever in the
file it finds the track. The writer goes by the number of sides that the header had. So a
track beyond these is lost; of several tracks at one place only the first is written, but
no other ever answers. `kept_iff_onSides` says that nothing else is lost of a disk that
the file format has room for, and `reread_kept_iff` how far that room goes.
-/
import AmstradCpc.Proofs.Disk.WriteBack

namespace AmstradCpc.Disk

open File

/-! ## What the reader gives -/

/-- A track that its block has room to describe. -/
structure Track.Describable (t : Track) : Prop where
  count : t.sectors.length ≤ sectorSlots
  size : ∀ s ∈ t.sectors, s.data.size < 65536

theorem Track.Describable.countable {t : Track} (h : t.Describable) : Countable t :=
  ⟨Nat.lt_of_le_of_lt h.count (by decide), h.size⟩

namespace File

theorem wordAt_lt (data : ByteArray) (i : Nat) : wordAt data i < 65536 := by
  have := (byteAt data i).toNat_lt
  have := (byteAt data (i + 1)).toNat_lt
  simp only [wordAt]
  omega

/-- As many sectors are read as are counted, and the length of each is a word. -/
theorem of_readSectors {file : ByteArray} {variant : Variant} {code : UInt8} : ∀ (count : Nat)
    {info offset : Nat} {sectors : List Sector},
    readSectors file variant code count info offset = some sectors →
      sectors.length = count ∧ ∀ s ∈ sectors, s.data.size < 65536
  | 0, _, _, _, h => by
    cases h
    exact ⟨rfl, nofun⟩
  | count + 1, info, offset, sectors, h => by
    simp only [readSectors] at h
    split at h
    · cases h
    · obtain ⟨rest, hrest, rfl⟩ := Option.map_eq_some_iff.mp h
      obtain ⟨hlen, hsizes⟩ := of_readSectors count hrest
      refine ⟨by rw [List.length_cons, hlen], List.forall_mem_cons.mpr ⟨?_, hsizes⟩⟩
      rw [size_sliceOrZero]
      cases variant with
      | standard =>
        have := sectorLength_le (byteAt file (info + 3))
        exact Nat.lt_of_le_of_lt (Nat.min_le_left ..) (by omega)
      | extended => exact wordAt_lt ..

theorem describable_of_readTrack {file : ByteArray} {variant : Variant} {index start : Nat} {t : Track}
    (h : readTrack file variant index start = .ok t) : t.Describable := by
  simp only [readTrack] at h
  split at h
  · cases h
  · split at h
    · next sectors hsectors =>
      cases h
      obtain ⟨hlen, hsizes⟩ := of_readSectors _ hsectors
      exact ⟨hlen ▸ Nat.min_le_right .., hsizes⟩
    · cases h

theorem describable_of_readTracks {file : ByteArray} {variant : Variant} {length : Nat → Nat} :
    ∀ (remaining : Nat) {index start : Nat} {tracks : List Track},
    readTracks file variant length remaining index start = .ok tracks → ∀ t ∈ tracks, t.Describable
  | 0, _, _, _, h => by
    cases h
    exact nofun
  | remaining + 1, index, start, tracks, h => by
    simp only [readTracks] at h
    split at h
    · exact describable_of_readTracks remaining h
    split at h
    · cases h
      exact nofun
    cases ht : readTrack file variant index start with
    | error e => simp [ht, bind, Except.bind] at h
    | ok t =>
      cases hr : readTracks file variant length remaining (index + 1) (start + length index) with
      | error e => simp [ht, hr, bind, Except.bind] at h
      | ok rest =>
        simp only [ht, hr, bind, Except.bind, pure, Except.pure, Except.ok.injEq] at h
        subst h
        exact List.forall_mem_cons.mpr
          ⟨describable_of_readTrack ht, describable_of_readTracks remaining hr⟩

end File

namespace Image

/-- A disk that was read has a side at least, and its tracks can be described. -/
theorem of_parse {file : ByteArray} {d : Image} (h : Image.parse file = .ok d) :
    1 ≤ d.sides ∧ d.dirty = false ∧ ∀ t ∈ d.tracks, t.Describable := by
  rcases Image.parse_cases file with hs | hs | ⟨variant, length, count, hd⟩
  · cases hs.symm.trans h
  · cases hs.symm.trans h
  · rw [Image.parse_of_declares hd] at h
    cases hr : readTracks file variant length count 0 headerSize with
    | error e => simp [hr, Except.map] at h
    | ok tracks =>
      simp only [hr, Except.map, Except.ok.injEq] at h
      subst h
      refine ⟨?_, rfl, describable_of_readTracks count hr⟩
      rw [UInt8.le_iff_toNat_le, toNat_max]
      exact Nat.le_max_right ..

/-! ## Tracks at their places -/

/-- Written back, the disk has as many sides as now and answers every question for a sector
as it does now. -/
def KeptWhole (d : Image) : Prop :=
  ∃ e, Image.parse d.toBytes = .ok e ∧ e.sides = d.sides ∧ ∀ cylinder side idCylinder record,
    e.sector cylinder side idCylinder record = d.sector cylinder side idCylinder record

/-- Every sector that is asked for lies on a side that the disk has. -/
def OnSides (d : Image) : Prop :=
  ∀ cylinder side t, d.track cylinder side = some t → d.sides ≤ side → t.sectors = []

/-- The file format has room for so many places, and for blocks of so many units. -/
structure HasRoom (places units : Nat) (d : Image) : Prop where
  places : d.places.length ≤ places
  blocks : ∀ t, some t ∈ d.places → (trackBlock t).size ≤ units * 0x100

/-- The tracks in the places of a disk answer as the disk does, on the sides it has. -/
theorem find?_places {d : Image} (h : 1 ≤ d.sides) (cylinder side : UInt8) :
    (d.places.filterMap id).find? (·.liesAt cylinder side) =
      if side < d.sides then d.track cylinder side else none := by
  have hmax : max d.sides.toNat 1 = d.sides.toNat :=
    Nat.max_eq_left (by rwa [UInt8.le_iff_toNat_le, UInt8.toNat_one] at h)
  have hmem {t : Track} : t ∈ d.places.filterMap id ↔
      t.side < d.sides ∧ d.track t.cylinder t.side = some t := by
    rw [UInt8.lt_iff_toNat_lt, ← hmax, ← mem_places_iff]
    simp only [List.mem_filterMap, id, exists_eq_right]
  cases hf : (d.places.filterMap id).find? (·.liesAt cylinder side) with
  | some t =>
    have hlies := List.find?_some hf
    obtain ⟨hc, hs⟩ := Prod.mk.inj (Track.liesAt_iff.mp hlies)
    obtain ⟨hside, htrack⟩ := hmem.mp (List.mem_of_find?_eq_some hf)
    subst hc hs
    rw [if_pos hside, htrack]
  | none =>
    split
    · next hside =>
      cases ht : d.track cylinder side with
      | none => rfl
      | some t =>
        have hlies := (mem_of_track ht).2
        obtain ⟨hc, hs⟩ := Prod.mk.inj hlies
        subst hc hs
        exact absurd (Track.liesAt_iff.mpr hlies)
          (List.find?_eq_none.mp hf t (hmem.mpr ⟨hside, ht⟩))
    · rfl

/-- Where there is room, a disk that was read is kept exactly if no sector of it lies on a
side that it does not have. -/
theorem kept_iff_onSides {d : Image} (hsides : 1 ≤ d.sides) (htracks : ∀ t ∈ d.tracks, t.Describable)
    (hroom : HasRoom (lengthSlots + 1) 255 d) : KeptWhole d ↔ OnSides d := by
  have hplace {t : Track} (ht : some t ∈ d.places) : t.Describable :=
    htracks t (mem_of_track (mem_places_iff.mp ht).2).1
  have hparse := parse_toBytes_places hsides hroom.places
    fun t ht => ⟨(hplace ht).countable, hroom.blocks t ht⟩
  have hsame : (d.places.filterMap id).map described = d.places.filterMap id := by
    refine (List.map_congr_left fun t ht => described_eq_self (hplace ?_).count).trans (List.map_id' _)
    simpa using ht
  rw [hsame] at hparse
  have hsector (cylinder side idCylinder record : UInt8) :
      ({ sides := d.sides, tracks := d.places.filterMap id, dirty := false } : Image).sector cylinder side
        idCylinder record = if side < d.sides then d.sector cylinder side idCylinder record else none := by
    rw [sector, track, find?_places hsides]
    split <;> rfl
  constructor
  · rintro ⟨e, he, -, hkept⟩ cylinder side t ht hbeyond
    cases hparse.symm.trans he
    refine List.eq_nil_iff_forall_not_mem.mpr fun s hs => ?_
    have hask := hkept cylinder side s.id.cylinder s.id.record
    rw [hsector, if_neg (UInt8.not_lt.mpr hbeyond), sector, ht] at hask
    exact List.find?_eq_none.mp hask.symm s hs (by simp [Sector.answersTo])
  · intro hon
    refine ⟨_, hparse, rfl, fun cylinder side idCylinder record => ?_⟩
    rw [hsector]
    split
    · rfl
    · next hbeyond =>
      rw [sector]
      cases ht : d.track cylinder side with
      | none => rfl
      | some t =>
        rw [Option.bind_some, hon cylinder side t ht (UInt8.not_lt.mp hbeyond)]
        rfl

theorem Ordered.onSides {d : Image} (h : d.Ordered) : OnSides d := by
  intro cylinder side t ht hbeyond
  obtain ⟨hmem, hplace⟩ := mem_of_track ht
  have hside : t.side = side := congrArg Prod.snd hplace
  exact absurd (hside ▸ h.side_lt t hmem) (UInt8.not_lt.mpr hbeyond)

theorem KeptWhole.keeps {d : Image} : KeptWhole d → Keeps d
  | ⟨e, he, _, hsame⟩ => ⟨e, he, hsame⟩

/-! ## Files of a few tracks -/

/-- A file of one side with a row of track blocks, whatever the tracks say of where they
lie. For the last the table has one unit, which need not be true. -/
def rowFile (row : List Track) (last : Track) : ByteArray :=
  extendedFile (row.length + 1).toUInt8 1 (row.map (fun t => lengthEntry (some t)) ++ [1])
    (blocks (row.map some) ++ trackBlock last)

theorem holdsAt_rowFile (row : List Track) (last : Track) :
    HoldsAt (rowFile row last) headerSize (blocks (row.map some)) ∧
      HoldsAt (rowFile row last) (headerSize + (blocks (row.map some)).size) (trackBlock last) :=
  holdsAt_append.mp (holdsAt_extendedFile ..).2.2.2

theorem tableLength_rowFile {row : List Track} (last : Track) (hlen : row.length < lengthSlots)
    (hblocks : ∀ t ∈ row, (trackBlock t).size ≤ 255 * 0x100) :
    (∀ i (h : i < (row.map some).length),
        tableLength (rowFile row last) (0 + i) = (placeBlock (row.map some)[i]).size) ∧
      tableLength (rowFile row last) (0 + row.length) = 0x100 := by
  have hmap : (row.map fun t => lengthEntry (some t)).length = row.length := List.length_map _
  have hcount : (row.map (fun t => lengthEntry (some t)) ++ [1]).length = row.length + 1 := by
    rw [List.length_append, hmap, List.length_singleton]
  constructor
  · intro i hi
    rw [List.length_map] at hi
    rw [Nat.zero_add, rowFile, tableLength_extendedFile (by omega) (by omega),
      List.getElem_append_left (by omega), List.getElem_map, List.getElem_map]
    refine size_placeBlock fun t ht => hblocks t ?_
    cases ht
    exact List.getElem_mem hi
  · rw [Nat.zero_add, rowFile, tableLength_extendedFile (by omega) hlen,
      List.getElem_append_right (by omega)]
    simp only [hmap, Nat.sub_self, List.getElem_cons_zero]
    rfl

/-- The tracks of the row are read as they are. -/
theorem parse_rowFile {row : List Track} {last : Track} (hlen : row.length < lengthSlots)
    (hrow : ∀ t ∈ row, t.Describable ∧ (trackBlock t).size ≤ 255 * 0x100) (hlast : last.Describable) :
    Image.parse (rowFile row last) = .ok ⟨1, row ++ [last], false⟩ := by
  have hcount : (row.length + 1).toUInt8.toNat = row.length + 1 :=
    UInt8.toNat_ofNat_of_lt' (Nat.lt_trans (Nat.succ_lt_succ hlen) (by decide))
  have hdeclares : Declares (rowFile row last) .extended (tableLength (rowFile row last)) (row.length + 1) :=
    declares_extendedFile (by rw [hcount]; exact (Nat.mul_one _).symm)
  obtain ⟨hblocks, hblock⟩ := holdsAt_rowFile row last
  obtain ⟨hlengths, hlength⟩ := tableLength_rowFile last hlen fun t ht => (hrow t ht).2
  have hread := readTracks_places 1 (row.map some) hblocks hlengths fun t ht =>
    (hrow t (by simpa using ht)).1.countable
  have hne : tableLength (rowFile row last) (0 + row.length) ≠ 0 := by
    rw [hlength]
    decide
  rw [List.length_map, readTracks_some 0 hblock hlast.countable hne] at hread
  have hsides : max (byteAt (rowFile row last) 0x31) 1 = 1 := by
    rw [rowFile, byteAt_extendedFile _ _ _ _ (show 1 < 4 by omega)]
    rfl
  have hsame : ((row.map some).filterMap id).map described = row := by
    rw [List.filterMap_map]
    show (row.filterMap some).map described = row
    rw [List.filterMap_some]
    exact (List.map_congr_left fun t ht => described_eq_self (hrow t ht).1.count).trans (List.map_id' _)
  rw [Image.parse_of_declares hdeclares, hsides, hread, hsame, described_eq_self hlast.count]
  rfl

/-! ## How far the room goes -/

/-- A track of one side with one sector, which has no data. -/
def bareTrack (cylinder : UInt8) : Track := ⟨cylinder, 0, 0, 0, [⟨⟨cylinder, 0, 1, 0⟩, 0, 0, .empty⟩]⟩

theorem describable_bareTrack (cylinder : UInt8) : (bareTrack cylinder).Describable := by
  refine ⟨show 1 ≤ 29 by decide, fun s hs => ?_⟩
  rw [List.mem_singleton.mp hs]
  exact show (0 : Nat) < 65536 by decide

theorem size_trackBlock_bareTrack (cylinder : UInt8) : (trackBlock (bareTrack cylinder)).size = 0x100 := by
  have hdata : ((bareTrack cylinder).sectors.map (·.data.size)).sum = 0 * 0x100 := rfl
  rw [size_trackBlock_of_units hdata]

/-- Two such tracks at the two places behind those that the table has room for. -/
def strewnDisk : Image := ⟨1, [bareTrack 204, bareTrack 205], false⟩

theorem ordered_strewnDisk : strewnDisk.Ordered := ⟨by decide, by decide, by decide⟩

theorem mem_strewnDisk {t : Track} (h : t ∈ strewnDisk.tracks) : ∃ c, t = bareTrack c := by
  rcases List.mem_cons.mp h with rfl | h
  · exact ⟨204, rfl⟩
  · exact ⟨205, List.mem_singleton.mp h⟩

theorem hasRoom_strewnDisk {places units : Nat} (hplaces : 206 ≤ places) (hunits : 1 ≤ units) :
    HasRoom places units strewnDisk := by
  refine ⟨Nat.le_trans (Nat.le_of_eq (length_places_of_one_side rfl)) hplaces, fun t ht => ?_⟩
  obtain ⟨c, rfl⟩ := mem_strewnDisk (ordered_strewnDisk.mem_places_iff.mp ht)
  rw [size_trackBlock_bareTrack]
  exact Nat.mul_le_mul_right 0x100 hunits

theorem parse_strewnDisk : Image.parse (rowFile [bareTrack 204] (bareTrack 205)) = .ok strewnDisk := by
  refine parse_rowFile (by decide) (fun t ht => ?_) (describable_bareTrack 205)
  rw [List.mem_singleton.mp ht, size_trackBlock_bareTrack]
  exact ⟨describable_bareTrack 204, by decide⟩

theorem not_keeps_strewnDisk : ¬Keeps strewnDisk := by
  have hdrop : strewnDisk.places.drop lengthSlots = [some (bareTrack 204), some (bareTrack 205)] :=
    places_drop_of_one_side (k := 2) rfl (by decide)
  refine not_keeps_of_far ordered_strewnDisk hdrop ?_ (by decide) (by decide) fun u hu => ?_
  · rw [size_trackBlock_bareTrack, size_trackBlock_bareTrack]
    decide
  · obtain ⟨c, rfl⟩ := mem_strewnDisk hu
    exact ⟨(describable_bareTrack c).countable, by rw [size_trackBlock_bareTrack]; decide⟩

/-- A track with one sector of 255 units. -/
def longTrack : Track := ⟨0, 0, 0, 0, [⟨⟨0, 0, 1, 0⟩, 0, 0, byteRun (255 * 0x100) 0⟩]⟩

theorem describable_longTrack : longTrack.Describable := by
  refine ⟨show 1 ≤ 29 by decide, fun s hs => ?_⟩
  rw [List.mem_singleton.mp hs, size_byteRun]
  decide

theorem size_trackBlock_longTrack : (trackBlock longTrack).size = 256 * 0x100 := by
  have hdata : (longTrack.sectors.map (·.data.size)).sum = 255 * 0x100 := by
    simp only [longTrack, List.map_cons, List.map_nil, List.sum_cons, List.sum_nil, size_byteRun,
      Nat.add_zero]
  rw [size_trackBlock_of_units hdata]

/-- A disk with just that track. -/
def longDisk : Image := ⟨1, [longTrack], false⟩

theorem ordered_longDisk : longDisk.Ordered := by
  refine ⟨show (1 : UInt8) ≤ 1 by decide, List.pairwise_singleton .., fun t ht => ?_⟩
  rw [List.mem_singleton.mp ht]
  exact show (0 : UInt8) < 1 by decide

theorem hasRoom_longDisk {places units : Nat} (hplaces : 1 ≤ places) (hunits : 256 ≤ units) :
    HasRoom places units longDisk := by
  refine ⟨Nat.le_trans (Nat.le_of_eq (length_places_of_one_side rfl)) hplaces, fun t ht => ?_⟩
  rw [List.mem_singleton.mp (ordered_longDisk.mem_places_iff.mp ht), size_trackBlock_longTrack]
  exact Nat.mul_le_mul_right 0x100 hunits

theorem parse_longDisk : Image.parse (rowFile [] longTrack) = .ok longDisk :=
  parse_rowFile (by decide) nofun describable_longTrack

theorem not_keeps_longDisk : ¬Keeps longDisk := by
  have hdrop : longDisk.places.drop 0 = [some longTrack] := places_drop_of_one_side (k := 1) rfl rfl
  exact not_keeps_of_heavy ordered_longDisk (by decide) hdrop size_trackBlock_longTrack
    (List.cons_ne_nil _ _) fun u hu hne => absurd (List.mem_singleton.mp hu) hne

/-- **How far writing back what was read goes.** Take any room for places and for the
units of a block, at least one of each. That every disk that is read from a file and
has that room is kept by writing it back, exactly if it has no sector on a side beyond
its number of sides, holds up to 205 places and 255 units, and no further. -/
theorem reread_kept_iff {places units : Nat} (hplaces : 1 ≤ places) (hunits : 1 ≤ units) :
    (∀ file d, Image.parse file = .ok d → HasRoom places units d → (KeptWhole d ↔ OnSides d)) ↔
      places ≤ 205 ∧ units ≤ 255 := by
  constructor
  · intro h
    have hstrewn : ¬206 ≤ places := fun hp =>
      not_keeps_strewnDisk (((h _ _ parse_strewnDisk (hasRoom_strewnDisk hp hunits)).mpr
        ordered_strewnDisk.onSides).keeps)
    have hlong : ¬256 ≤ units := fun hu =>
      not_keeps_longDisk (((h _ _ parse_longDisk (hasRoom_longDisk hplaces hu)).mpr
        ordered_longDisk.onSides).keeps)
    omega
  · rintro ⟨hp, hu⟩ file d hparse hroom
    obtain ⟨hsides, -, htracks⟩ := of_parse hparse
    refine kept_iff_onSides hsides htracks ⟨Nat.le_trans hroom.places hp, fun t ht => ?_⟩
    exact Nat.le_trans (hroom.blocks t ht) (Nat.mul_le_mul_right 0x100 hu)

/-- At the limits all is as it should be; one place more is too much. -/
theorem reread_kept_at_limits :
    (∀ file d, Image.parse file = .ok d → HasRoom 205 255 d → (KeptWhole d ↔ OnSides d)) ∧
      ¬∀ file d, Image.parse file = .ok d → HasRoom 206 255 d → (KeptWhole d ↔ OnSides d) :=
  ⟨(reread_kept_iff (by decide) (by decide)).mpr ⟨by decide, by decide⟩,
    fun h => absurd ((reread_kept_iff (by decide) (by decide)).mp h) (by decide)⟩

/-- A track that says it lies on the second side. -/
def strayTrack : Track := ⟨0, 1, 0x4E, 0xE5, [⟨⟨0, 1, 1, 0⟩, 0, 0, byteRun 128 0xE5⟩]⟩

/-- A disk of one side with just that track. -/
def strayDisk : Image := ⟨1, [strayTrack], false⟩

/-- The disk is read from a file, but the track is not written back. -/
theorem strayDisk_not_kept :
    Image.parse (rowFile [] strayTrack) = .ok strayDisk ∧ ¬KeptWhole strayDisk := by
  have hdescribable : strayTrack.Describable := by
    refine ⟨show 1 ≤ 29 by decide, fun s hs => ?_⟩
    rw [List.mem_singleton.mp hs, size_byteRun]
    decide
  refine ⟨parse_rowFile (by decide) nofun hdescribable, fun hkept => ?_⟩
  have htracks : ∀ t ∈ strayDisk.tracks, t = strayTrack := fun t ht => List.mem_singleton.mp ht
  have hroom : HasRoom (lengthSlots + 1) 255 strayDisk := by
    refine ⟨Nat.le_trans (Nat.le_of_eq (length_places_of_one_side rfl)) (by decide), fun t ht => ?_⟩
    obtain ⟨hside, htrack⟩ := mem_places_iff.mp ht
    rw [htracks t (mem_of_track htrack).1] at hside
    exact absurd hside (by decide)
  have hon := (kept_iff_onSides (UInt8.le_refl 1) (fun t ht => htracks t ht ▸ hdescribable) hroom).mp hkept
  exact List.cons_ne_nil _ _ (hon 0 1 strayTrack rfl (UInt8.le_refl 1))

end Image

end AmstradCpc.Disk
