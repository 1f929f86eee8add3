/-
The order of tracks on a disk, and what keeps it. Tracks that follow each other
by cylinder and side are found by asking for their place, and the row of places
that a file is written from holds every one of them. Formatting a track puts one
track in its place among the others; writing a sector changes no more than that
sector, and neither its ID nor its length.
-/
import AmstradCpc.Disk.File
import AmstradCpc.Proofs.Bytes

namespace AmstradCpc.Disk

/-! ## Changing one item -/

theorem modifyFirst?_eq_some {α : Type} {f : α → Option α} {l l' : List α}
    (h : Image.modifyFirst? f l = some l') : ∃ before a a' after, l = before ++ a :: after ∧
      (∀ b ∈ before, f b = none) ∧ f a = some a' ∧ l' = before ++ a' :: after := by
  induction l generalizing l' with
  | nil => cases h
  | cons a rest ih =>
    simp only [Image.modifyFirst?] at h
    split at h
    · next a' ha =>
      cases h
      exact ⟨[], a, a', rest, rfl, fun b hb => absurd hb List.not_mem_nil, ha, rfl⟩
    · next hn =>
      obtain ⟨rest', hr, rfl⟩ := Option.map_eq_some_iff.mp h
      obtain ⟨before, b, b', after, rfl, hb, hf, rfl⟩ := ih hr
      refine ⟨a :: before, b, b', after, rfl, fun c hc => ?_, hf, rfl⟩
      rcases List.mem_cons.mp hc with rfl | hc
      · exact hn
      · exact hb c hc

/-- What every change of an item keeps is kept of the whole row. -/
theorem map_modifyFirst? {α β : Type} {f : α → Option α} (g : α → β)
    (hg : ∀ a a', f a = some a' → g a' = g a) {l l' : List α} (h : Image.modifyFirst? f l = some l') :
    l'.map g = l.map g := by
  obtain ⟨before, a, a', after, rfl, -, ha, rfl⟩ := modifyFirst?_eq_some h
  rw [List.map_append, List.map_append, List.map_cons, List.map_cons, hg a a' ha]

/-! ## Tracks in order -/

/-- Track `a` comes before track `b`, on a lower cylinder or on a lower side of the same. -/
def Track.Before (a b : Track) : Prop :=
  a.cylinder < b.cylinder ∨ a.cylinder = b.cylinder ∧ a.side < b.side

instance (a b : Track) : Decidable (a.Before b) := inferInstanceAs (Decidable (_ ∨ _))

theorem Track.before_iff {a b : Track} : a.Before b ↔
    a.cylinder.toNat < b.cylinder.toNat ∨
      a.cylinder.toNat = b.cylinder.toNat ∧ a.side.toNat < b.side.toNat := by
  simp only [Track.Before, UInt8.lt_iff_toNat_lt, ← UInt8.toNat_inj]

theorem Track.Before.asymm {a b : Track} (h : a.Before b) : ¬b.Before a := by
  rw [Track.before_iff] at h ⊢
  omega

/-- Where a track lies. -/
def Track.place (t : Track) : UInt8 × UInt8 := (t.cylinder, t.side)

theorem Track.Before.place_ne {a b : Track} (h : a.Before b) : a.place ≠ b.place := by
  intro heq
  obtain ⟨hc, hs⟩ := Prod.mk.inj heq
  rw [Track.before_iff, hc, hs] at h
  omega

/-- Of two tracks at different places one comes before the other. -/
theorem Track.before_of_not_before {a b : Track} (h : ¬b.Before a) (hne : a.place ≠ b.place) :
    a.Before b := by
  simp only [Track.place, ne_eq, Prod.mk.injEq, ← UInt8.toNat_inj] at hne
  rw [Track.before_iff] at h ⊢
  omega

theorem Track.liesAt_iff {t : Track} {cylinder side : UInt8} :
    t.liesAt cylinder side = true ↔ t.place = (cylinder, side) := by
  simp [Track.liesAt, Track.place]

/-- The order of tracks is one of their places. -/
theorem Track.pairwise_of_map_place {tracks tracks' : List Track}
    (h : tracks'.map Track.place = tracks.map Track.place) (hp : tracks.Pairwise Track.Before) :
    tracks'.Pairwise Track.Before := by
  have hmap (l : List Track) : l.Pairwise Track.Before ↔
      (l.map Track.place).Pairwise fun p q => p.1 < q.1 ∨ p.1 = q.1 ∧ p.2 < q.2 := by
    rw [List.pairwise_map]
    rfl
  rw [hmap, h, ← hmap]
  exact hp

namespace Image

/-- The tracks of a disk are in order and on its sides, of which there is at least one. -/
structure Ordered (d : Image) : Prop where
  sides_pos : 1 ≤ d.sides
  tracks : d.tracks.Pairwise Track.Before
  side_lt : ∀ t ∈ d.tracks, t.side < d.sides

/-- Tracks in order lie at different places. -/
theorem eq_of_same_place {tracks : List Track} (h : tracks.Pairwise Track.Before) {t u : Track}
    (ht : t ∈ tracks) (hu : u ∈ tracks) (hp : t.place = u.place) : t = u := by
  induction h with
  | nil => cases ht
  | cons hbefore _ ih =>
    rcases List.mem_cons.mp ht with rfl | ht' <;> rcases List.mem_cons.mp hu with rfl | hu'
    · rfl
    · exact absurd hp (hbefore u hu').place_ne
    · exact absurd hp.symm (hbefore t ht').place_ne
    · exact ih ht' hu'

theorem mem_of_track {d : Image} {cylinder side : UInt8} {t : Track}
    (h : d.track cylinder side = some t) : t ∈ d.tracks ∧ t.place = (cylinder, side) := by
  rw [track] at h
  have hplace := List.find?_some h
  exact ⟨List.mem_of_find?_eq_some h, Track.liesAt_iff.mp hplace⟩

theorem track_eq_some_iff {d : Image} (h : d.Ordered) {cylinder side : UInt8} {t : Track} :
    d.track cylinder side = some t ↔ t ∈ d.tracks ∧ t.place = (cylinder, side) := by
  refine ⟨mem_of_track, ?_⟩
  rintro ⟨ht, hp⟩
  cases hf : d.track cylinder side with
  | none => exact absurd (Track.liesAt_iff.mpr hp) (List.find?_eq_none.mp hf t ht)
  | some u =>
    obtain ⟨hu, hp'⟩ := mem_of_track hf
    rw [eq_of_same_place h.tracks hu ht (hp'.trans hp.symm)]

theorem cylinders_le_iff {d : Image} {n : Nat} :
    d.cylinders ≤ n ↔ ∀ t ∈ d.tracks, t.cylinder.toNat < n := by
  have hfold : ∀ (tracks : List Track) (m : Nat),
      tracks.foldl (fun n t => max n (t.cylinder.toNat + 1)) m ≤ n ↔
        m ≤ n ∧ ∀ t ∈ tracks, t.cylinder.toNat < n := by
    intro tracks
    induction tracks with
    | nil => simp
    | cons t tracks ih =>
      intro m
      rw [List.foldl_cons, ih, Nat.max_le, List.forall_mem_cons, and_assoc]
      rfl
  rw [cylinders, hfold]
  simp

theorem lt_cylinders {d : Image} {t : Track} (ht : t ∈ d.tracks) : t.cylinder.toNat < d.cylinders :=
  cylinders_le_iff.mp (Nat.le_refl _) t ht

theorem cylinders_le (d : Image) : d.cylinders ≤ 256 :=
  cylinders_le_iff.mpr fun t _ => t.cylinder.toNat_lt

theorem length_places (d : Image) : d.places.length = d.cylinders * max d.sides.toNat 1 := by
  have hsides (c : Nat) : ((List.range (max d.sides.toNat 1)).map fun s =>
      d.track c.toUInt8 s.toUInt8).length = max d.sides.toNat 1 := by
    rw [List.length_map, List.length_range]
  rw [places, length_flatMap_of_length hsides, List.length_range]

theorem cylinders_le_length_places (d : Image) : d.cylinders ≤ d.places.length := by
  rw [length_places]
  exact Nat.le_mul_of_pos_right _ (Nat.lt_of_lt_of_le Nat.zero_lt_one (Nat.le_max_right ..))

/-- A track has a place in the file if it is the first where it lies, on a side that the
disk has. -/
theorem mem_places_iff {d : Image} {t : Track} : some t ∈ d.places ↔
    t.side.toNat < max d.sides.toNat 1 ∧ d.track t.cylinder t.side = some t := by
  simp only [places, List.mem_flatMap, List.mem_map, List.mem_range]
  constructor
  · rintro ⟨c, -, s, hs, ht⟩
    obtain ⟨hc, hside⟩ := Prod.mk.inj (mem_of_track ht).2
    rw [hc, hside]
    exact ⟨Nat.lt_of_le_of_lt (Nat.mod_le s 256) hs, ht⟩
  · rintro ⟨hs, ht⟩
    refine ⟨t.cylinder.toNat, lt_cylinders (mem_of_track ht).1, t.side.toNat, hs, ?_⟩
    rwa [show t.cylinder.toNat.toUInt8 = t.cylinder from UInt8.ofNat_toNat,
      show t.side.toNat.toUInt8 = t.side from UInt8.ofNat_toNat]

section Places

variable {d : Image} (h : d.Ordered)
include h

theorem Ordered.one_le_sides : 1 ≤ d.sides.toNat := by
  have := UInt8.le_iff_toNat_le.mp h.sides_pos
  simpa using this

theorem Ordered.max_sides : max d.sides.toNat 1 = d.sides.toNat := Nat.max_eq_left h.one_le_sides

theorem Ordered.mem_places_iff {t : Track} : some t ∈ d.places ↔ t ∈ d.tracks := by
  rw [Image.mem_places_iff, h.max_sides, track_eq_some_iff h]
  exact ⟨fun ht => ht.2.1, fun ht => ⟨UInt8.lt_iff_toNat_lt.mp (h.side_lt t ht), ht, rfl⟩⟩

/-- The places of a disk are visited cylinder by cylinder, and side by side in each. -/
theorem Ordered.pairwise_places : (d.places.filterMap id).Pairwise Track.Before := by
  have hc {c : Nat} (hc : c ∈ List.range d.cylinders) : c.toUInt8.toNat = c :=
    UInt8.toNat_ofNat_of_lt' (Nat.lt_of_lt_of_le (List.mem_range.mp hc) d.cylinders_le)
  have hs {s : Nat} (hs : s ∈ List.range d.sides.toNat) : s.toUInt8.toNat = s :=
    UInt8.toNat_ofNat_of_lt' (Nat.lt_trans (List.mem_range.mp hs) d.sides.toNat_lt)
  rw [List.pairwise_filterMap]
  simp only [places, h.max_sides, List.pairwise_flatMap, List.pairwise_map, List.mem_map]
  constructor
  · intro c _
    refine List.Pairwise.imp_of_mem ?_ List.pairwise_lt_range
    intro s s' hs₁ hs₂ hlt t ht u hu
    obtain ⟨hct, hst⟩ := Prod.mk.inj (mem_of_track ht).2
    obtain ⟨hcu, hsu⟩ := Prod.mk.inj (mem_of_track hu).2
    rw [Track.before_iff, hct, hcu, hst, hsu, hs hs₁, hs hs₂]
    exact .inr ⟨rfl, hlt⟩
  · refine List.Pairwise.imp_of_mem ?_ List.pairwise_lt_range
    rintro c c' hc₁ hc₂ hlt _ ⟨s, -, rfl⟩ _ ⟨s', -, rfl⟩ t ht u hu
    have hct := (Prod.mk.inj (mem_of_track ht).2).1
    have hcu := (Prod.mk.inj (mem_of_track hu).2).1
    rw [Track.before_iff, hct, hcu, hc hc₁, hc hc₂]
    exact .inl hlt

/-- The places of a disk hold its tracks, in their order. -/
theorem Ordered.places_filterMap : d.places.filterMap id = d.tracks := by
  have hnodup {l : List Track} (hl : l.Pairwise Track.Before) : l.Nodup := by
    refine List.Pairwise.imp ?_ hl
    rintro a _ hab rfl
    exact hab.place_ne rfl
  have hperm : (d.places.filterMap id).Perm d.tracks := by
    rw [List.perm_ext_iff_of_nodup (hnodup h.pairwise_places) (hnodup h.tracks)]
    intro t
    simp only [List.mem_filterMap, id, exists_eq_right, h.mem_places_iff]
  exact hperm.eq_of_pairwise (fun _ _ _ _ hab hba => absurd hba hab.asymm) h.pairwise_places h.tracks

/-- The tracks at the first places lie elsewhere than those at the places after them. -/
theorem Ordered.place_ne_of_drop {n : Nat} {t u : Track} (hu : some u ∈ d.places.take n)
    (ht : some t ∈ d.places.drop n) : u.place ≠ t.place := by
  have hpair := h.pairwise_places
  rw [← List.take_append_drop n d.places, List.filterMap_append, List.pairwise_append] at hpair
  have hmem {l : List (Option Track)} {v : Track} (hv : some v ∈ l) : v ∈ l.filterMap id :=
    List.mem_filterMap.mpr ⟨some v, hv, rfl⟩
  exact (hpair.2.2 u (hmem hu) t (hmem ht)).place_ne

end Places

/-! ## Formatting a track -/

/-- A track as formatting leaves it. -/
def freshTrack (cylinder side : UInt8) (ids : List SectorId) (filler : UInt8) : Track :=
  ⟨cylinder, side, formatGap, filler, ids.map (blankSector filler)⟩

theorem trackBefore_iff {a b : Track} : trackBefore a b = true ↔ ¬b.Before a := by
  simp only [trackBefore, Bool.or_eq_true, Bool.and_eq_true, decide_eq_true_eq, beq_iff_eq,
    Track.before_iff, UInt8.lt_iff_toNat_lt, UInt8.le_iff_toNat_le, ← UInt8.toNat_inj]
  omega

theorem trackBefore_trans (a b c : Track) (hab : trackBefore a b = true) (hbc : trackBefore b c = true) :
    trackBefore a c = true := by
  rw [trackBefore_iff, Track.before_iff] at *
  omega

theorem trackBefore_total (a b : Track) : (trackBefore a b || trackBefore b a) = true := by
  rw [Bool.or_eq_true, trackBefore_iff, trackBefore_iff, Track.before_iff, Track.before_iff]
  omega

/-- Replacing the track at a place keeps the order and the tracks at all other places. -/
theorem tracks_replace {tracks tracks' : List Track} {fresh : Track} (h : tracks.Pairwise Track.Before)
    (hm : modifyFirst? (fun t => if t.liesAt fresh.cylinder fresh.side then some fresh else none) tracks =
      some tracks') :
    tracks'.Pairwise Track.Before ∧ ∀ t, t ∈ tracks' ↔
      t = fresh ∨ t ∈ tracks ∧ t.liesAt fresh.cylinder fresh.side = false := by
  constructor
  · refine Track.pairwise_of_map_place (map_modifyFirst? Track.place (fun t t' ht => ?_) hm) h
    obtain ⟨hl, hf⟩ := Option.ite_none_right_eq_some.mp ht
    cases hf
    exact (Track.liesAt_iff.mp hl).symm
  · intro t
    obtain ⟨before, a, a', after, rfl, hb, ha, rfl⟩ := modifyFirst?_eq_some hm
    obtain ⟨hl, hf⟩ := Option.ite_none_right_eq_some.mp ha
    cases hf
    have hbefore : ∀ u ∈ before, u.liesAt fresh.cylinder fresh.side = false := fun u hu => by
      simpa using hb u hu
    have hafter : ∀ u ∈ after, u.liesAt fresh.cylinder fresh.side = false := by
      intro u hu
      have hau : a.Before u := by
        rw [List.pairwise_append, List.pairwise_cons] at h
        exact h.2.1.1 u hu
      rw [Bool.eq_false_iff]
      intro hlu
      exact hau.place_ne ((Track.liesAt_iff.mp hl).trans (Track.liesAt_iff.mp hlu).symm)
    simp only [List.mem_append, List.mem_cons]
    constructor
    · rintro (ht | rfl | ht)
      · exact .inr ⟨.inl ht, hbefore t ht⟩
      · exact .inl rfl
      · exact .inr ⟨.inr (.inr ht), hafter t ht⟩
    · rintro (rfl | ⟨ht | rfl | ht, hn⟩)
      · exact .inr (.inl rfl)
      · exact .inl ht
      · cases hl.symm.trans hn
      · exact .inr (.inr ht)

/-- So does adding one at a place where there is none. -/
theorem tracks_add {tracks : List Track} {fresh : Track} (h : tracks.Pairwise Track.Before)
    (hn : ∀ t ∈ tracks, t.liesAt fresh.cylinder fresh.side = false) :
    ((tracks ++ [fresh]).mergeSort trackBefore).Pairwise Track.Before ∧
      ∀ t, t ∈ (tracks ++ [fresh]).mergeSort trackBefore ↔
        t = fresh ∨ t ∈ tracks ∧ t.liesAt fresh.cylinder fresh.side = false := by
  constructor
  · have hsorted := List.pairwise_mergeSort trackBefore_trans trackBefore_total (tracks ++ [fresh])
    have happart : (tracks ++ [fresh]).Pairwise fun a b => a.place ≠ b.place := by
      simp only [List.pairwise_append, List.pairwise_singleton, List.mem_singleton, true_and]
      refine ⟨h.imp Track.Before.place_ne, ?_⟩
      rintro t ht _ rfl hp
      exact absurd (Track.liesAt_iff.mpr hp) (Bool.eq_false_iff.mp (hn t ht))
    have hboth := hsorted.and (happart.perm (List.mergeSort_perm _ trackBefore).symm Ne.symm)
    exact hboth.imp fun ⟨hab, hne⟩ => Track.before_of_not_before (trackBefore_iff.mp hab) hne
  · intro t
    simp only [List.mem_mergeSort, List.mem_append, List.mem_singleton]
    constructor
    · rintro (ht | rfl)
      · exact .inr ⟨ht, hn t ht⟩
      · exact .inl rfl
    · rintro (rfl | ⟨ht, -⟩)
      · exact .inr rfl
      · exact .inl ht

/-- Formatting puts the fresh track at its place and keeps the tracks at all other places. -/
theorem tracks_formatTrack {d : Image} (h : d.tracks.Pairwise Track.Before) (cylinder side : UInt8)
    (ids : List SectorId) (filler : UInt8) :
    (d.formatTrack cylinder side ids filler).tracks.Pairwise Track.Before ∧
      ∀ t, t ∈ (d.formatTrack cylinder side ids filler).tracks ↔
        t = freshTrack cylinder side ids filler ∨ t ∈ d.tracks ∧ t.liesAt cylinder side = false := by
  let fresh := freshTrack cylinder side ids filler
  have htracks : (d.formatTrack cylinder side ids filler).tracks =
      (modifyFirst? (fun t => if t.liesAt cylinder side then some fresh else none) d.tracks).getD
        ((d.tracks ++ [fresh]).mergeSort trackBefore) := rfl
  rw [htracks]
  cases hm : modifyFirst? (fun t => if t.liesAt cylinder side then some fresh else none) d.tracks with
  | some tracks' => exact tracks_replace h hm
  | none =>
    refine tracks_add h fun t ht => ?_
    have := modifyFirst?_eq_none.mp hm t ht
    rw [ite_eq_right_iff] at this
    exact Bool.eq_false_iff.mpr fun hl => nomatch this hl

theorem toNat_sides_formatTrack (d : Image) (cylinder : UInt8) {side : UInt8} (hs : canFormat side = true)
    (ids : List SectorId) (filler : UInt8) :
    (d.formatTrack cylinder side ids filler).sides.toNat = max d.sides.toNat (side.toNat + 1) := by
  have hlt : side.toNat < 255 := by simpa [canFormat, UInt8.lt_iff_toNat_lt] using hs
  show (max d.sides (side + 1)).toNat = _
  rw [toNat_max, UInt8.toNat_add]
  exact congrArg (max _) (Nat.mod_eq_of_lt (show side.toNat + 1 < 256 by omega))

theorem Ordered.formatTrack {d : Image} (h : d.Ordered) {cylinder side : UInt8} (hs : canFormat side = true)
    (ids : List SectorId) (filler : UInt8) : (d.formatTrack cylinder side ids filler).Ordered := by
  have hsides := toNat_sides_formatTrack d cylinder hs ids filler
  obtain ⟨hsorted, hmem⟩ := tracks_formatTrack h.tracks cylinder side ids filler
  refine ⟨?_, hsorted, fun t ht => ?_⟩
  · have := h.one_le_sides
    rw [UInt8.le_iff_toNat_le, hsides]
    exact Nat.le_trans this (Nat.le_max_left ..)
  · rw [UInt8.lt_iff_toNat_lt, hsides]
    rcases (hmem t).mp ht with rfl | ⟨ht, -⟩
    · exact Nat.lt_of_lt_of_le (Nat.lt_succ_self _) (Nat.le_max_right ..)
    · exact Nat.lt_of_lt_of_le (UInt8.lt_iff_toNat_lt.mp (h.side_lt t ht)) (Nat.le_max_left ..)

/-! ## Writing a sector -/

end Image

/-- What writing keeps of a sector: its ID and the length of its data. -/
def Sector.shape (s : Sector) : SectorId × Nat := (s.id, s.data.size)

/-- What writing to its sectors keeps of a track. -/
def Track.shape (t : Track) : (UInt8 × UInt8) × List (SectorId × Nat) :=
  (t.place, t.sectors.map Sector.shape)

namespace Image

/-- Writing a sector keeps the sides of a disk and the shape of every track. -/
theorem shapes_writeSector {d d' : Image} {cylinder side idCylinder record : UInt8} {data : ByteArray}
    {deleted : Bool} (h : d.writeSector cylinder side idCylinder record data deleted = some d') :
    d'.sides = d.sides ∧ d'.tracks.map Track.shape = d.tracks.map Track.shape := by
  simp only [writeSector] at h
  obtain ⟨tracks, hm, rfl⟩ := Option.map_eq_some_iff.mp h
  refine ⟨rfl, map_modifyFirst? Track.shape (fun t t' ht => ?_) hm⟩
  obtain ⟨-, ht⟩ := Option.ite_none_right_eq_some.mp ht
  obtain ⟨sectors, hms, rfl⟩ := Option.map_eq_some_iff.mp ht
  have := map_modifyFirst? Sector.shape (fun s s' hs => ?_) hms
  · simp only [Track.shape, Track.place, this]
  · obtain ⟨-, hs⟩ := Option.ite_none_right_eq_some.mp hs
    cases hs
    simp only [Sector.shape, Sector.id_overwrite, Sector.size_overwrite]

/-- Every track of a disk that has the shapes of another has the shape of one of its tracks. -/
theorem exists_of_shapes {d d' : Image} (h : d'.tracks.map Track.shape = d.tracks.map Track.shape)
    {t' : Track} (ht : t' ∈ d'.tracks) : ∃ t ∈ d.tracks, t.shape = t'.shape := by
  have hmem := List.mem_map_of_mem (f := Track.shape) ht
  rw [h] at hmem
  exact List.mem_map.mp hmem

theorem Ordered.of_shapes {d d' : Image} (h : d.Ordered) (hs : d'.sides = d.sides)
    (ht : d'.tracks.map Track.shape = d.tracks.map Track.shape) : d'.Ordered := by
  refine ⟨hs ▸ h.sides_pos, ?_, fun t' ht' => ?_⟩
  · refine Track.pairwise_of_map_place ?_ h.tracks
    have := congrArg (List.map Prod.fst) ht
    rwa [List.map_map, List.map_map] at this
  · obtain ⟨t, htm, heq⟩ := exists_of_shapes ht ht'
    have hside : t.side = t'.side := congrArg (·.1.2) heq
    rw [hs, ← hside]
    exact h.side_lt t htm

/-- On one side the places of a disk are its cylinders. -/
theorem places_of_one_side {d : Image} (h : d.sides = 1) :
    d.places = (List.range d.cylinders).map fun c => d.track c.toUInt8 0 := by
  have hmax : max d.sides.toNat 1 = 1 := by
    rw [h]
    rfl
  rw [places, hmax, List.map_eq_flatMap]
  rfl

theorem length_places_of_one_side {d : Image} (h : d.sides = 1) : d.places.length = d.cylinders := by
  rw [places_of_one_side h, List.length_map, List.length_range]

theorem places_drop_of_one_side {d : Image} (h : d.sides = 1) {n k : Nat} (hc : d.cylinders = n + k) :
    d.places.drop n = (List.range k).map fun i => d.track (n + i).toUInt8 0 := by
  rw [places_of_one_side h, hc, List.range_add, List.map_append, List.map_map]
  exact List.drop_left' (by rw [List.length_map, List.length_range])

end Image

/-! ## Blank disks -/

/-- The tracks of a blank disk. -/
def Format.track (format : Format) (cylinder : Nat) : Track :=
  Image.freshTrack cylinder.toUInt8 0 (format.ids cylinder.toUInt8) Format.filler

/-- A disk with its first `n` cylinders formatted. -/
def formattedUpTo (format : Format) (n : Nat) : Image :=
  (List.range n).foldl (fun d c => d.formatTrack c.toUInt8 0 (format.ids c.toUInt8) Format.filler)
    { sides := 1, tracks := [], dirty := false }

theorem formattedUpTo_succ (format : Format) (n : Nat) : formattedUpTo format (n + 1) =
    (formattedUpTo format n).formatTrack n.toUInt8 0 (format.ids n.toUInt8) Format.filler := by
  simp only [formattedUpTo, List.range_succ, List.foldl_append, List.foldl_cons, List.foldl_nil]

theorem formattedUpTo_spec (format : Format) : ∀ n ≤ 256, (formattedUpTo format n).Ordered ∧
    (formattedUpTo format n).sides = 1 ∧
      ∀ t, t ∈ (formattedUpTo format n).tracks ↔ ∃ c < n, t = format.track c
  | 0, _ => by
    refine ⟨⟨UInt8.le_refl 1, .nil, nofun⟩, rfl, fun t => ⟨nofun, ?_⟩⟩
    rintro ⟨c, hc, -⟩
    cases hc
  | n + 1, hn => by
    obtain ⟨hord, hsides, hmem⟩ := formattedUpTo_spec format n (by omega)
    rw [formattedUpTo_succ]
    generalize formattedUpTo format n = d at hord hsides hmem ⊢
    refine ⟨hord.formatTrack (by decide) _ _, ?_, fun t => ?_⟩
    · show max d.sides (0 + 1) = 1
      rw [hsides]
      rfl
    · rw [(Image.tracks_formatTrack hord.tracks _ _ _ _).2, hmem]
      constructor
      · rintro (rfl | ⟨⟨c, hc, rfl⟩, -⟩)
        · exact ⟨n, by omega, rfl⟩
        · exact ⟨c, by omega, rfl⟩
      · rintro ⟨c, hc, rfl⟩
        by_cases he : c = n
        · exact .inl (he ▸ rfl)
        · refine .inr ⟨⟨c, by omega, rfl⟩, Bool.eq_false_iff.mpr fun hl => he ?_⟩
          have hcyl : c.toUInt8 = n.toUInt8 := congrArg Prod.fst (Track.liesAt_iff.mp hl)
          have := congrArg UInt8.toNat hcyl
          simp only [Nat.toUInt8, UInt8.toNat_ofNat'] at this
          omega

theorem formatted_eq (format : Format) : Image.formatted format = (formattedUpTo format 40).markClean := rfl

theorem Image.Ordered.markClean {d : Image} (h : d.Ordered) : d.markClean.Ordered :=
  ⟨h.sides_pos, h.tracks, h.side_lt⟩

theorem ordered_formatted (format : Format) : (Image.formatted format).Ordered := by
  rw [formatted_eq]
  exact (formattedUpTo_spec format 40 (by decide)).1.markClean

theorem sides_formatted (format : Format) : (Image.formatted format).sides = 1 := by
  rw [formatted_eq, ← (formattedUpTo_spec format 40 (by decide)).2.1]
  generalize formattedUpTo format 40 = d
  rfl

theorem mem_formatted {format : Format} {t : Track} :
    t ∈ (Image.formatted format).tracks ↔ ∃ c < 40, t = format.track c := by
  rw [formatted_eq, ← (formattedUpTo_spec format 40 (by decide)).2.2 t]
  generalize formattedUpTo format 40 = d
  rfl

end AmstradCpc.Disk
