/-
What writing a disk back to its file keeps. Commands can make disks that the file
format has no room for: it has a table of 204 track lengths, each a byte that counts
units of 256 bytes, and 29 slots for the sectors of a track. Nothing refuses such a
disk, and what has no room is lost without a word. `Formed.keeps_iff` says for every
disk whose tracks the header has room for which of its sectors are lost; the disks at
the end each go beyond one limit by as little as can be, and lose a sector.
-/
import AmstradCpc.Proofs.Disk.RoundTrip

namespace AmstradCpc.Disk

open File

/-! ## Disks that commands make -/

/-- A track that commands can make: it has no more sectors than a format command lays
down, and every sector has the length that its ID tells. -/
structure Track.Formed (t : Track) : Prop where
  count : t.sectors.length ≤ 255
  length : ∀ s ∈ t.sectors, s.data.size = sectorLength s.id.sizeCode

/-- A disk that commands can make. -/
structure Image.Formed (d : Image) : Prop extends d.Ordered where
  formed : ∀ t ∈ d.tracks, t.Formed

theorem Track.Formed.countable {t : Track} (h : t.Formed) : Countable t := by
  refine ⟨Nat.lt_succ_of_le h.count, fun s hs => ?_⟩
  rw [h.length s hs]
  exact Nat.lt_of_le_of_lt (sectorLength_le _) (by decide)

theorem Track.Formed.of_shape {t t' : Track} (h : t.Formed) (hs : t.shape = t'.shape) : t'.Formed := by
  have hsectors : t.sectors.map Sector.shape = t'.sectors.map Sector.shape := congrArg Prod.snd hs
  constructor
  · have := congrArg List.length hsectors
    rw [List.length_map, List.length_map] at this
    exact this ▸ h.count
  · intro s' hs'
    have hshape : s'.shape ∈ t.sectors.map Sector.shape := hsectors ▸ List.mem_map_of_mem hs'
    obtain ⟨s, hsm, heq⟩ := List.mem_map.mp hshape
    obtain ⟨hid, hsize⟩ := Prod.mk.inj heq
    rw [← hsize, ← hid]
    exact h.length s hsm

namespace Image

theorem formed_freshTrack {cylinder side filler : UInt8} {ids : List SectorId}
    (hids : ids.length ≤ 255) : (freshTrack cylinder side ids filler).Formed := by
  refine ⟨by simpa [freshTrack] using hids, fun s hs => ?_⟩
  obtain ⟨id, -, rfl⟩ := List.mem_map.mp hs
  exact size_byteRun ..

theorem Formed.formatTrack {d : Image} (h : d.Formed) (cylinder : UInt8) {side : UInt8} (hside : side ≤ 1)
    {ids : List SectorId} (hids : ids.length ≤ 255) (filler : UInt8) :
    (d.formatTrack cylinder side ids filler).Formed := by
  have hcan : canFormat side = true := by
    rw [UInt8.le_iff_toNat_le, UInt8.toNat_one] at hside
    simp only [canFormat, UInt8.lt_iff_toNat_lt, decide_eq_true_eq]
    exact Nat.lt_of_le_of_lt hside (by decide)
  refine ⟨h.toOrdered.formatTrack hcan ids filler, fun t ht => ?_⟩
  rcases ((tracks_formatTrack h.tracks cylinder side ids filler).2 t).mp ht with rfl | ⟨ht, -⟩
  · exact formed_freshTrack hids
  · exact h.formed t ht

theorem Formed.of_shapes {d d' : Image} (h : d.Formed) (hs : d'.sides = d.sides)
    (ht : d'.tracks.map Track.shape = d.tracks.map Track.shape) : d'.Formed := by
  refine ⟨h.toOrdered.of_shapes hs ht, fun t' ht' => ?_⟩
  obtain ⟨t, htm, heq⟩ := exists_of_shapes ht ht'
  exact (h.formed t htm).of_shape heq

theorem length_ids (format : Format) (cylinder : UInt8) : (format.ids cylinder).length = 9 := by
  rw [Format.ids, List.length_map]
  rfl

theorem formed_formatted (format : Format) : (Image.formatted format).Formed := by
  refine ⟨ordered_formatted format, fun t ht => ?_⟩
  obtain ⟨c, -, rfl⟩ := mem_formatted.mp ht
  refine formed_freshTrack ?_
  rw [length_ids]
  decide

/-! ## Answering for every sector -/

/-- Written back, the disk still answers every question for a sector as it does now. -/
def Keeps (d : Image) : Prop :=
  ∃ e, Image.parse d.toBytes = .ok e ∧ ∀ cylinder side idCylinder record,
    e.sector cylinder side idCylinder record = d.sector cylinder side idCylinder record

/-- Every sector of a track is answered for by one that its block has room to describe. -/
def AnsweredFor (t : Track) : Prop :=
  ∀ s ∈ t.sectors, ∃ s' ∈ (described t).sectors,
    s'.id.cylinder = s.id.cylinder ∧ s'.id.record = s.id.record

instance (t : Track) : Decidable (AnsweredFor t) := inferInstanceAs (Decidable (∀ s ∈ t.sectors, _))

/-- The sectors described answer as all do exactly if they answer for all. -/
theorem find?_described_iff {t : Track} :
    (∀ c r, (described t).sectors.find? (·.answersTo c r) = t.sectors.find? (·.answersTo c r)) ↔
      AnsweredFor t := by
  constructor
  · intro h s hs
    have hsome : (t.sectors.find? (·.answersTo s.id.cylinder s.id.record)).isSome :=
      List.find?_isSome.mpr ⟨s, hs, by simp [Sector.answersTo]⟩
    rw [← h] at hsome
    obtain ⟨s', hs', hid⟩ := List.find?_isSome.mp hsome
    refine ⟨s', hs', ?_⟩
    simpa [Sector.answersTo] using hid
  · intro h c r
    have hsplit : t.sectors = (described t).sectors ++ t.sectors.drop sectorSlots :=
      (List.take_append_drop ..).symm
    cases hf : (described t).sectors.find? (·.answersTo c r) with
    | some s => rw [hsplit, List.find?_append, hf, Option.some_or]
    | none =>
      refine (List.find?_eq_none.mpr fun s hs hid => ?_).symm
      obtain ⟨s', hs', hc, hr⟩ := h s hs
      refine List.find?_eq_none.mp hf s' hs' ?_
      simpa [Sector.answersTo, hc, hr] using hid

theorem sector_readBack (d : Image) (cylinder side idCylinder record : UInt8) :
    d.readBack.sector cylinder side idCylinder record =
      (d.track cylinder side).bind fun t =>
        (described t).sectors.find? (·.answersTo idCylinder record) := by
  have htrack : d.readBack.track cylinder side = (d.track cylinder side).map described := List.find?_map ..
  rw [sector, htrack]
  cases d.track cylinder side <;> rfl

/-- Where the header has room for every track, a disk is kept exactly if each of its
sectors is answered for. -/
theorem Formed.keeps_iff {d : Image} (h : d.Formed)
    (hplaces : d.cylinders * d.sides.toNat ≤ lengthSlots + 1)
    (hblocks : ∀ t ∈ d.tracks, (trackBlock t).size ≤ 255 * 0x100) :
    Keeps d ↔ ∀ t ∈ d.tracks, AnsweredFor t := by
  have hparse := h.toOrdered.parse_toBytes_described hplaces fun t ht =>
    ⟨(h.formed t ht).countable, hblocks t ht⟩
  constructor
  · rintro ⟨e, he, hsame⟩ t ht
    cases hparse.symm.trans he
    refine find?_described_iff.mp fun idCylinder record => ?_
    have := hsame t.cylinder t.side idCylinder record
    rwa [sector_readBack, sector, (track_eq_some_iff h.toOrdered).mpr ⟨ht, rfl⟩] at this
  · intro hk
    refine ⟨_, hparse, fun cylinder side idCylinder record => ?_⟩
    rw [sector_readBack, sector]
    cases ht : d.track cylinder side with
    | none => rfl
    | some t => exact find?_described_iff.mpr (hk t (mem_of_track ht).1) idCylinder record

/-- The track at a place that the reader does not come to is lost. -/
theorem not_keeps_of_drop {d : Image} (h : d.Ordered) {n : Nat} {t : Track} {rest : List Track}
    (hparse : Image.parse d.toBytes = .ok
      { sides := d.sides, tracks := ((d.places.take n).filterMap id).map described ++ rest,
        dirty := false })
    (ht : some t ∈ d.places.drop n) (hs : t.sectors ≠ []) (hrest : ∀ u ∈ rest, u.place ≠ t.place) :
    ¬Keeps d := by
  rintro ⟨e, hparse', hsame⟩
  cases hparse.symm.trans hparse'
  obtain ⟨s, others, hsectors⟩ := List.exists_cons_of_ne_nil hs
  have htrack : d.track t.cylinder t.side = some t :=
    (track_eq_some_iff h).mpr ⟨h.mem_places_iff.mp (List.mem_of_mem_drop ht), rfl⟩
  have hkept := hsame t.cylinder t.side s.id.cylinder s.id.record
  rw [sector, sector, htrack, track, List.find?_eq_none.mpr] at hkept
  · simp [hsectors, Sector.answersTo] at hkept
  · intro u hu hl
    rw [Track.liesAt_iff] at hl
    rcases List.mem_append.mp hu with hu | hu
    · obtain ⟨u', hu', rfl⟩ := List.mem_map.mp hu
      obtain ⟨p, hp, rfl⟩ := List.mem_filterMap.mp hu'
      exact h.place_ne_of_drop hp ht hl
    · exact hrest u hu hl

/-- A track whose length is counted as none is passed over, like a place without a track:
256 units are too many for a byte. -/
theorem not_keeps_of_heavy {d : Image} (h : d.Ordered) {n : Nat} (hn : n < lengthSlots) {t : Track}
    (hdrop : d.places.drop n = [some t]) (hheavy : (trackBlock t).size = 256 * 0x100)
    (hs : t.sectors ≠ [])
    (hfit : ∀ u ∈ d.tracks, u ≠ t → Storable u) : ¬Keeps d := by
  have hmem : some t ∈ d.places.drop n := by
    rw [hdrop]
    exact List.mem_singleton_self _
  have hlen : d.places.length = n + 1 := by
    have := congrArg List.length hdrop
    rw [List.length_drop, List.length_singleton] at this
    omega
  have hlast : d.places[n] = some t := by
    have := congrArg (·[0]?) hdrop
    simp only [List.getElem?_drop, Nat.add_zero, List.getElem?_cons_zero] at this
    exact (List.getElem?_eq_some_iff.mp this).2
  have hcyl : d.cylinders ≤ 255 := by
    have := d.cylinders_le_length_places
    have : lengthSlots = 204 := rfl
    omega
  have hzero : tableLength d.toBytes n = 0 := by
    rw [tableLength_toBytes (by omega) hn, hlast, placeBlock, hheavy]
  have hfirst : ∀ u, some u ∈ d.places.take n → Storable u := by
    intro u hu
    refine hfit u (h.mem_places_iff.mp (List.mem_of_mem_take hu)) ?_
    rintro rfl
    exact h.place_ne_of_drop hu hmem rfl
  have hparse := Image.parse_toBytes_eq h.sides_pos hcyl (show n ≤ d.places.length by omega) (by omega) hfirst
  rw [hlen, Nat.add_sub_cancel_left] at hparse
  simp only [readTracks, hzero, if_pos, Except.map] at hparse
  exact not_keeps_of_drop h hparse hmem hs fun u hu => absurd hu List.not_mem_nil

/-- Of two tracks behind the table the first is read, its length taken to be 84 units; so
the other is looked for past the end of the file. -/
theorem not_keeps_of_far {d : Image} (h : d.Ordered) {a b : Track}
    (hdrop : d.places.drop lengthSlots = [some a, some b])
    (hshort : (trackBlock a).size + (trackBlock b).size < 0x54 * 0x100)
    (hs : b.sectors ≠ []) (hne : a.place ≠ b.place) (hfit : ∀ u ∈ d.tracks, Storable u) : ¬Keeps d := by
  have hmem : some a ∈ d.places.drop lengthSlots ∧ some b ∈ d.places.drop lengthSlots := by
    rw [hdrop]
    exact ⟨List.mem_cons_self, List.mem_cons_of_mem _ (List.mem_singleton_self _)⟩
  have hplaces : ∀ u, some u ∈ d.places → Storable u := fun u hu => hfit u (h.mem_places_iff.mp hu)
  have hlen : d.places.length = lengthSlots + 2 := by
    have := congrArg List.length hdrop
    rw [List.length_drop, List.length_cons, List.length_singleton] at this
    omega
  have hcyl : d.cylinders ≤ 255 := by
    have := d.cylinders_le_length_places
    have : lengthSlots = 204 := rfl
    omega
  have hlength : tableLength d.toBytes lengthSlots = 0x54 * 0x100 :=
    tableLength_behind (List.ne_nil_of_mem
      (List.mem_filterMap.mpr ⟨some a, List.mem_of_mem_drop hmem.1, rfl⟩))
  have hread : readTracks d.toBytes .extended (tableLength d.toBytes) 2 lengthSlots
      (headerSize + (blocks (d.places.take lengthSlots)).size) = .ok [described a] := by
    have hblocks := d.holdsAt_toBytes
    have hsize := d.size_toBytes
    rw [← List.take_append_drop lengthSlots d.places, hdrop, blocks_append, blocks_cons] at hblocks hsize
    rw [holdsAt_append, holdsAt_append] at hblocks
    simp only [blocks_cons, ByteArray.size_append, placeBlock] at hsize
    have hempty : (blocks []).size = 0 := by decide
    rw [readTracks_some 1 hblocks.2.1 (hplaces a (List.mem_of_mem_drop hmem.1)).toCountable
      (by rw [hlength]; decide), hlength, readTracks_of_end (by omega)]
    rfl
  have hparse := Image.parse_toBytes_eq h.sides_pos hcyl (show lengthSlots ≤ d.places.length by omega)
    (Nat.le_refl _) fun u hu => hplaces u (List.mem_of_mem_take hu)
  rw [hlen, Nat.add_sub_cancel_left, hread] at hparse
  refine not_keeps_of_drop h hparse hmem.2 hs fun u hu => ?_
  rw [List.mem_singleton.mp hu]
  exact hne

/-! ## How much of the format a disk takes -/

/-- Limits on how much of the file format a disk takes: the places that its
cylinders and sides make, the sectors of a track, and the units of 256 bytes of the
block of a track. -/
structure Limits where
  places : Nat
  sectors : Nat
  units : Nat

/-- A disk is within limits. -/
structure Within (n : Limits) (d : Image) : Prop where
  places : d.cylinders * d.sides.toNat ≤ n.places
  tracks : ∀ t ∈ d.tracks, t.sectors.length ≤ n.sectors ∧ (trackBlock t).size ≤ n.units * 0x100

/-- The sectors of a fresh track make a block of so many units. -/
theorem size_trackBlock_freshTrack {cylinder side filler : UInt8} {ids : List SectorId} {units : Nat}
    (hdata : (ids.map (sectorLength ·.sizeCode)).sum = units * 0x100) :
    (trackBlock (freshTrack cylinder side ids filler)).size = (units + 1) * 0x100 := by
  have hsizes : (freshTrack cylinder side ids filler).sectors.map (·.data.size) =
      ids.map (sectorLength ·.sizeCode) := by
    rw [freshTrack, List.map_map]
    exact List.map_congr_left fun id _ => size_byteRun ..
  exact size_trackBlock_of_units (hsizes ▸ hdata)

theorem within_freshTrack {n : Limits} {cylinder side filler : UInt8} {ids : List SectorId} (units : Nat)
    (hids : ids.length ≤ n.sectors) (hdata : (ids.map (sectorLength ·.sizeCode)).sum = units * 0x100)
    (hunits : units + 1 ≤ n.units) :
    (freshTrack cylinder side ids filler).sectors.length ≤ n.sectors ∧
      (trackBlock (freshTrack cylinder side ids filler)).size ≤ n.units * 0x100 := by
  refine ⟨by simpa [freshTrack] using hids, ?_⟩
  rw [size_trackBlock_freshTrack hdata]
  exact Nat.mul_le_mul_right _ hunits

theorem within_formatted {n : Limits} (hp : 40 ≤ n.places) (hs : 9 ≤ n.sectors) (hu : 19 ≤ n.units)
    (format : Format) : Within n (.formatted format) := by
  refine ⟨?_, fun t ht => ?_⟩
  · rw [sides_formatted, UInt8.toNat_one, Nat.mul_one]
    refine Nat.le_trans (cylinders_le_iff.mpr fun t ht => ?_) hp
    obtain ⟨c, hc, rfl⟩ := mem_formatted.mp ht
    exact Nat.lt_of_le_of_lt (Nat.mod_le c 256) hc
  · obtain ⟨c, -, rfl⟩ := mem_formatted.mp ht
    refine within_freshTrack 18 (by rw [length_ids]; exact hs) ?_ hu
    rw [Format.ids, List.map_map]
    show (Format.interleave.map fun _ => sectorLength 2).sum = 18 * 0x100
    decide

/-- The file of a blank disk is read as the blank disk. -/
theorem parse_toBytes_formatted (format : Format) :
    Image.parse (Image.formatted format).toBytes = .ok (.formatted format) := by
  have hformed := formed_formatted format
  have hwithin : Within ⟨40, 9, 19⟩ (.formatted format) :=
    within_formatted (Nat.le_refl _) (Nat.le_refl _) (Nat.le_refl _) format
  have hclean : (Image.formatted format).dirty = false := by
    rw [formatted_eq]
    generalize formattedUpTo format 40 = d
    rfl
  rw [hformed.toOrdered.parse_toBytes_described (Nat.le_trans hwithin.places (by decide))
    fun t ht => ⟨(hformed.formed t ht).countable, Nat.le_trans (hwithin.tracks t ht).2 (by decide)⟩,
    readBack, ← hclean,
    List.map_congr_left fun t ht => described_eq_self (Nat.le_trans (hwithin.tracks t ht).1 (by decide)),
    List.map_id']

theorem sides_formatTrack {d : Image} (hone : d.sides = 1) (cylinder : UInt8) (ids : List SectorId)
    (filler : UInt8) : (d.formatTrack cylinder 0 ids filler).sides = 1 := by
  show max d.sides (0 + 1) = 1
  rw [hone]
  rfl

/-- Formatting a track of the first side keeps a disk of one side within limits that
the place of the track, its sectors and its block keep. -/
theorem Within.formatTrack {n : Limits} {d : Image} (h : Within n d) (hord : d.Ordered) (hone : d.sides = 1)
    {cylinder filler : UInt8} {ids : List SectorId} (units : Nat) (hcyl : cylinder.toNat < n.places)
    (hids : ids.length ≤ n.sectors) (hdata : (ids.map (sectorLength ·.sizeCode)).sum = units * 0x100)
    (hunits : units + 1 ≤ n.units) : Within n (d.formatTrack cylinder 0 ids filler) := by
  have hmem := (tracks_formatTrack hord.tracks cylinder 0 ids filler).2
  have hplaces := h.places
  rw [hone, UInt8.toNat_one, Nat.mul_one] at hplaces
  refine ⟨?_, fun t ht => ?_⟩
  · rw [sides_formatTrack hone, UInt8.toNat_one, Nat.mul_one, cylinders_le_iff]
    intro t ht
    rcases (hmem t).mp ht with rfl | ⟨ht, -⟩
    · exact hcyl
    · exact cylinders_le_iff.mp hplaces t ht
  · rcases (hmem t).mp ht with rfl | ⟨ht, -⟩
    · exact within_freshTrack units hids hdata hunits
    · exact h.tracks t ht

/-! ## Disks that are not kept -/

/-- A row of sectors of one cylinder with these size codes, numbered from zero. -/
def idRow (cylinder : UInt8) (codes : List UInt8) : List SectorId :=
  codes.zipIdx.map fun (code, i) => ⟨cylinder, 0, i.toUInt8, code⟩

/-- A disk of one side within so many places that has a track on the last has all of them. -/
theorem Within.cylinders_eq {n : Limits} {d : Image} (h : Within n d) (hone : d.sides = 1) {t : Track}
    (ht : t ∈ d.tracks) (hlast : t.cylinder.toNat + 1 = n.places) : d.cylinders = n.places := by
  have hplaces := h.places
  have hlt := lt_cylinders ht
  rw [hone, UInt8.toNat_one, Nat.mul_one] at hplaces
  omega

/-! ### Too many sectors -/

/-- A blank disk whose first track has thirty sectors of 128 bytes. -/
def crowdedDisk : Image :=
  (Image.formatted .data).formatTrack 0 0 (idRow 0 (.replicate 30 0)) Format.filler

theorem within_crowdedDisk {n : Limits} (hp : 40 ≤ n.places) (hs : 30 ≤ n.sectors) (hu : 19 ≤ n.units) :
    Within n crowdedDisk :=
  (within_formatted hp (by omega) hu .data).formatTrack (ordered_formatted .data) (sides_formatted .data)
    15 (Nat.lt_of_lt_of_le (by decide) hp) hs (by decide) (by omega)

theorem not_keeps_crowdedDisk : ¬Keeps crowdedDisk := by
  have hformed : crowdedDisk.Formed :=
    (formed_formatted .data).formatTrack 0 (by decide) (by decide) _
  have hwithin : Within ⟨40, 30, 19⟩ crowdedDisk :=
    within_crowdedDisk (Nat.le_refl _) (Nat.le_refl _) (Nat.le_refl _)
  have hkeeps := hformed.keeps_iff (Nat.le_trans hwithin.places (by decide))
    fun t ht => Nat.le_trans (hwithin.tracks t ht).2 (by decide)
  intro hk
  have hanswered := hkeeps.mp hk (freshTrack 0 0 (idRow 0 (.replicate 30 0)) Format.filler)
    (((tracks_formatTrack (ordered_formatted .data).tracks _ _ _ _).2 _).mpr (.inl rfl))
  exact absurd hanswered (by decide +kernel)

/-! ### Too long a block -/

/-- Twelve sectors of 255 units together. -/
def heavyTrack : Track := freshTrack 39 0 (idRow 39 [6, 6, 6, 6, 6, 6, 6, 5, 4, 3, 2, 1]) Format.filler

/-- A blank disk whose last track has these, and so a block of 256 units. -/
def heavyDisk : Image :=
  (Image.formatted .data).formatTrack 39 0 (idRow 39 [6, 6, 6, 6, 6, 6, 6, 5, 4, 3, 2, 1]) Format.filler

theorem within_heavyDisk {n : Limits} (hp : 40 ≤ n.places) (hs : 12 ≤ n.sectors) (hu : 256 ≤ n.units) :
    Within n heavyDisk :=
  (within_formatted hp (by omega) (by omega) .data).formatTrack (ordered_formatted .data)
    (sides_formatted .data) 255 (Nat.lt_of_lt_of_le (by decide) hp) hs (by decide) hu

theorem formed_heavyDisk : heavyDisk.Formed :=
  (formed_formatted .data).formatTrack 39 (by decide) (by decide) _

theorem sides_heavyDisk : heavyDisk.sides = 1 := sides_formatTrack (sides_formatted .data) _ _ _

theorem mem_heavyDisk {t : Track} : t ∈ heavyDisk.tracks ↔
    t = heavyTrack ∨ t ∈ (Image.formatted .data).tracks ∧ t.liesAt 39 0 = false :=
  (tracks_formatTrack (ordered_formatted .data).tracks _ _ _ _).2 t

theorem cylinders_heavyDisk : heavyDisk.cylinders = 39 + 1 :=
  have hwithin : Within ⟨40, 12, 256⟩ heavyDisk :=
    within_heavyDisk (Nat.le_refl _) (Nat.le_refl _) (Nat.le_refl _)
  hwithin.cylinders_eq sides_heavyDisk (mem_heavyDisk.mpr (.inl rfl)) (by decide)

theorem places_drop_heavyDisk : heavyDisk.places.drop 39 = [some heavyTrack] := by
  have htrack := (track_eq_some_iff formed_heavyDisk.toOrdered).mpr ⟨mem_heavyDisk.mpr (.inl rfl), rfl⟩
  rw [places_drop_of_one_side sides_heavyDisk cylinders_heavyDisk]
  exact congrArg (fun p => [p]) htrack

theorem not_keeps_heavyDisk : ¬Keeps heavyDisk := by
  refine not_keeps_of_heavy formed_heavyDisk.toOrdered (by decide) places_drop_heavyDisk
    (size_trackBlock_freshTrack (show _ = 255 * 0x100 by decide)) (by decide) fun u hu hne => ?_
  refine ⟨(formed_heavyDisk.formed u hu).countable, ?_⟩
  have hblank : u ∈ (Image.formatted .data).tracks := ((mem_heavyDisk.mp hu).resolve_left hne).1
  have hsmall : Within ⟨40, 9, 19⟩ (Image.formatted .data) :=
    within_formatted (Nat.le_refl _) (Nat.le_refl _) (Nat.le_refl _) .data
  exact Nat.le_trans (hsmall.tracks u hblank).2 (by decide)

/-! ### Too many places -/

/-- A track of one sector, in a block of two units. -/
def farTrack (cylinder : UInt8) : Track := freshTrack cylinder 0 (idRow cylinder [1]) Format.filler

theorem size_farTrack (cylinder : UInt8) : (trackBlock (farTrack cylinder)).size = 2 * 0x100 :=
  size_trackBlock_freshTrack (show sectorLength 1 + 0 = 1 * 0x100 by decide)

/-- A blank disk with such a track on cylinder 204. -/
def nearDisk : Image := (Image.formatted .data).formatTrack 204 0 (idRow 204 [1]) Format.filler

/-- And with one on cylinder 205. -/
def farDisk : Image := nearDisk.formatTrack 205 0 (idRow 205 [1]) Format.filler

theorem formed_nearDisk : nearDisk.Formed :=
  (formed_formatted .data).formatTrack 204 (by decide) (by decide) _

theorem formed_farDisk : farDisk.Formed := formed_nearDisk.formatTrack 205 (by decide) (by decide) _

theorem sides_nearDisk : nearDisk.sides = 1 := sides_formatTrack (sides_formatted .data) _ _ _

theorem sides_farDisk : farDisk.sides = 1 := sides_formatTrack sides_nearDisk _ _ _

theorem mem_farDisk : farTrack 204 ∈ farDisk.tracks ∧ farTrack 205 ∈ farDisk.tracks := by
  have hnear : farTrack 204 ∈ nearDisk.tracks :=
    ((tracks_formatTrack (ordered_formatted .data).tracks _ _ _ _).2 _).mpr (.inl rfl)
  have hmem := (tracks_formatTrack formed_nearDisk.tracks 205 0 (idRow 205 [1]) Format.filler).2
  exact ⟨(hmem _).mpr (.inr ⟨hnear, by decide⟩), (hmem _).mpr (.inl rfl)⟩

theorem within_farDisk {n : Limits} (hp : 206 ≤ n.places) (hs : 9 ≤ n.sectors) (hu : 19 ≤ n.units) :
    Within n farDisk := by
  have hone : 1 ≤ n.sectors := Nat.le_trans (by decide) hs
  have hblank := within_formatted (by omega) hs hu .data
  have hnear : Within n nearDisk :=
    hblank.formatTrack (ordered_formatted .data) (sides_formatted .data) 1
      (Nat.lt_of_lt_of_le (by decide) hp) hone (by decide) (by omega)
  exact hnear.formatTrack formed_nearDisk.toOrdered sides_nearDisk 1
    (Nat.lt_of_lt_of_le (by decide) hp) hone (by decide) (by omega)

theorem within_farDisk_self : Within ⟨206, 9, 19⟩ farDisk :=
  within_farDisk (Nat.le_refl _) (Nat.le_refl _) (Nat.le_refl _)

theorem cylinders_farDisk : farDisk.cylinders = 204 + 2 :=
  within_farDisk_self.cylinders_eq sides_farDisk mem_farDisk.2 (by decide)

theorem places_drop_farDisk : farDisk.places.drop 204 = [some (farTrack 204), some (farTrack 205)] := by
  have h204 := (track_eq_some_iff formed_farDisk.toOrdered).mpr ⟨mem_farDisk.1, rfl⟩
  have h205 := (track_eq_some_iff formed_farDisk.toOrdered).mpr ⟨mem_farDisk.2, rfl⟩
  rw [places_drop_of_one_side sides_farDisk cylinders_farDisk]
  exact congr (congrArg (fun p q => [p, q]) h204) h205

theorem not_keeps_farDisk : ¬Keeps farDisk := by
  refine not_keeps_of_far formed_farDisk.toOrdered places_drop_farDisk ?_ (by decide) (by decide)
    fun u hu => ⟨(formed_farDisk.formed u hu).countable,
      Nat.le_trans (within_farDisk_self.tracks u hu).2 (by decide)⟩
  rw [size_farTrack, size_farTrack]
  decide

end Image

end AmstradCpc.Disk
