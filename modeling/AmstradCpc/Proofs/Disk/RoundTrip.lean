/-
What reading finds in a file that was written. Writer and reader meet at
positions only: the writer strings blocks together, the reader adds up the lengths
that the header gives. `readTracks_places` says that the two stay together as long
as the lengths read are those of the blocks written, and what the reader has by
then; `parse_toBytes` that for a disk that fits the format they stay together to
the end, so that the disk comes back as it was.
-/
import AmstradCpc.Proofs.Disk.Bounds
import AmstradCpc.Proofs.Disk.Order

namespace AmstradCpc.Disk

open File

namespace File

/-- Bytes that fit a field lie at its beginning. -/
theorem holdsAt_field {file : ByteArray} {start n : Nat} {bytes rest : List UInt8}
    (h : HoldsAt file start (field n (bytes ++ rest))) (hn : bytes.length ≤ n) :
    HoldsAt file start (byteList bytes) := by
  rw [field, byteList_append, sliceOrZero_append _ (by rw [size_byteList]; exact hn), holdsAt_append] at h
  exact h.1

/-! ## Sectors -/

theorem length_sectorInfos (sectors : List Sector) :
    (sectors.flatMap sectorInfo).length = sectors.length * 8 :=
  length_flatMap_of_length (f := sectorInfo) (fun _ => rfl) sectors

/-- The two bytes of a length make it up again. -/
theorem word_of_size {size : Nat} (h : size < 65536) :
    size.toUInt8.toNat + 256 * (size / 256).toUInt8.toNat = size := by
  simp only [Nat.toUInt8, UInt8.toNat_ofNat']
  omega

/-- Sectors that are described at `info`, with their data from `offset` on, are read as they are. -/
theorem readSectors_of_holdsAt {file : ByteArray} (code : UInt8) : ∀ (sectors : List Sector)
    {info offset : Nat}, HoldsAt file info (byteList (sectors.flatMap sectorInfo)) →
    HoldsAt file offset (joined (sectors.map (·.data))) → (∀ s ∈ sectors, s.data.size < 65536) →
    readSectors file .extended code sectors.length info offset = some sectors
  | [], _, _, _, _, _ => rfl
  | s :: sectors, info, offset, hinfo, hdata, hsize => by
    rw [List.flatMap_cons, byteList_append, holdsAt_append, size_byteList] at hinfo
    rw [List.map_cons, joined_cons, holdsAt_append] at hdata
    have hfits := hdata.1.fits
    have hb (i : Nat) (hi : i < 8) : byteAt file (info + i) = (sectorInfo s)[i]?.getD 0 := by
      rw [hinfo.1.byteAt (by rw [size_byteList]; exact hi), byteAt_byteList]
    have hword : wordAt file (info + 6) = s.data.size := by
      rw [wordAt, hb 6 (by omega), Nat.add_assoc, hb 7 (by omega)]
      exact word_of_size (hsize s (by simp))
    have ih := readSectors_of_holdsAt code sectors hinfo.2 hdata.2 fun t ht => hsize t (by simp [ht])
    simp only [List.length_cons, readSectors, hword, hdata.1.sliceOrZero]
    rw [if_neg (by omega), show info + 8 = info + (sectorInfo s).length from rfl, ih,
      hb 0 (by omega), hb 1 (by omega), hb 2 (by omega), hb 3 (by omega), hb 4 (by omega), hb 5 (by omega)]
    rfl

/-! ## A track block -/

/-- The numbers of a track have room in its block: the count of its sectors is
a byte, and the length of each a word. -/
structure Countable (t : Track) : Prop where
  count : t.sectors.length < 256
  size : ∀ s ∈ t.sectors, s.data.size < 65536

/-- What is read back of a track: the sectors that its block has room to describe. -/
def described (t : Track) : Track := { t with sectors := t.sectors.take sectorSlots }

theorem described_eq_self {t : Track} (h : t.sectors.length ≤ sectorSlots) : described t = t := by
  simp only [described, List.take_of_length_le h]

/-- The bytes about a track that follow its signature. -/
def aboutTrack (t : Track) : List UInt8 :=
  let code := match t.sectors with
    | [] => 2
    | s :: _ => s.id.sizeCode
  [t.cylinder, t.side, 0, 0, code, t.sectors.length.toUInt8, t.gap, t.filler]

/-- The bytes about a track and its sectors, with which its block opens. -/
def trackHeader (t : Track) : ByteArray :=
  trackSignature ++ byteRun 4 0 ++ byteList (aboutTrack t) ++
    field (sectorSlots * 8) (t.sectors.flatMap sectorInfo)

theorem size_trackSignature : trackSignature.size = 12 := by decide +kernel

theorem size_trackHeader (t : Track) : (trackHeader t).size = headerSize := by
  simp only [trackHeader, field, ByteArray.size_append, size_trackSignature, size_byteRun, size_byteList,
    size_sliceOrZero]
  rfl

theorem trackBlock_eq (t : Track) :
    trackBlock t = padToMultiple 0x100 (trackHeader t ++ joined (t.sectors.map (·.data))) := by
  have hsig : sliceOrZero trackSignature 0 0x10 = trackSignature ++ byteRun 4 0 := by
    have := sliceOrZero_append .empty (show trackSignature.size ≤ 0x10 by rw [size_trackSignature]; decide)
    rwa [ByteArray.append_empty, size_trackSignature] at this
  rw [trackHeader, ← hsig, ← foldl_append]
  rfl

/-- What lies in a track block, as far as the reader looks. -/
theorem holdsAt_trackBlock {file : ByteArray} {start : Nat} {t : Track}
    (h : HoldsAt file start (trackBlock t)) :
    HoldsAt file start trackSignature ∧ HoldsAt file (start + 0x10) (byteList (aboutTrack t)) ∧
      HoldsAt file (start + 0x18) (byteList ((described t).sectors.flatMap sectorInfo)) ∧
      HoldsAt file (start + headerSize) (joined ((described t).sectors.map (·.data))) := by
  rw [trackBlock_eq, padToMultiple, holdsAt_append, holdsAt_append, size_trackHeader] at h
  obtain ⟨⟨hheader, hdata⟩, -⟩ := h
  simp only [trackHeader, holdsAt_append, ByteArray.size_append, size_trackSignature, size_byteRun,
    size_byteList] at hheader
  obtain ⟨⟨⟨hsig, -⟩, habout⟩, hfield⟩ := hheader
  have hsplit := List.take_append_drop sectorSlots t.sectors
  refine ⟨hsig, habout, ?_, ?_⟩
  · rw [← hsplit, List.flatMap_append] at hfield
    refine holdsAt_field hfield ?_
    rw [length_sectorInfos]
    exact Nat.mul_le_mul_right 8 (List.length_take_le ..)
  · rw [← hsplit, List.map_append, joined_append, holdsAt_append] at hdata
    exact hdata.1

/-- The block of a track is read as the track with the sectors described. -/
theorem readTrack_of_holdsAt {file : ByteArray} {start : Nat} {t : Track} (index : Nat)
    (h : HoldsAt file start (trackBlock t)) (ht : Countable t) :
    readTrack file .extended index start = .ok (described t) := by
  obtain ⟨hsig, habout, hinfo, hdata⟩ := holdsAt_trackBlock h
  have hb (i : Nat) (hi : i < 8) : byteAt file (start + (0x10 + i)) = (aboutTrack t)[i]?.getD 0 := by
    rw [← Nat.add_assoc, habout.byteAt (by rw [size_byteList]; exact hi), byteAt_byteList]
  have hcount : min (byteAt file (start + 0x15)).toNat sectorSlots = (described t).sectors.length := by
    rw [hb 5 (by omega)]
    simp only [described, List.length_take]
    rw [Nat.min_comm]
    exact congrArg (min _) (UInt8.toNat_ofNat_of_lt' ht.count)
  have hsectors := readSectors_of_holdsAt (byteAt file (start + 0x14)) (described t).sectors hinfo hdata
    fun s hs => ht.size s (List.mem_of_mem_take hs)
  have hlabel : file.extract start (start + trackSignature.size) = trackSignature := hsig.extract
  simp only [readTrack, hlabel, hcount, hsectors]
  rw [if_neg (by simp), hb 0 (by omega), hb 1 (by omega), hb 6 (by omega), hb 7 (by omega)]
  rfl

theorem size_trackBlock (t : Track) :
    headerSize ≤ (trackBlock t).size ∧ (trackBlock t).size % 0x100 = 0 := by
  rw [trackBlock_eq, size_padToMultiple, ByteArray.size_append, size_trackHeader, headerSize]
  omega

/-- Data of so many whole units makes a block of one more. -/
theorem size_trackBlock_of_units {t : Track} {units : Nat}
    (h : (t.sectors.map (·.data.size)).sum = units * 0x100) :
    (trackBlock t).size = (units + 1) * 0x100 := by
  have hdata : (joined (t.sectors.map (·.data))).size = units * 0x100 := by
    rw [size_joined, List.map_map, ← h]
    rfl
  rw [trackBlock_eq, size_padToMultiple, ByteArray.size_append, size_trackHeader, hdata, headerSize]
  omega

/-- A track of which the numbers have room in its block, and the length of the block in
a byte of the table. -/
structure Storable (t : Track) : Prop extends Countable t where
  block : (trackBlock t).size ≤ 255 * 0x100

/-! ## The row of track blocks -/

/-- What a file has of a place: the block of a track, or nothing. -/
def placeBlock : Option Track → ByteArray
  | some t => trackBlock t
  | none => .empty

/-- A byte of the table tells the length of a block of up to 255 units. -/
theorem size_placeBlock {p : Option Track} (h : ∀ t, p = some t → (trackBlock t).size ≤ 255 * 0x100) :
    (placeBlock p).size / 0x100 % 0x100 * 0x100 = (placeBlock p).size := by
  cases p with
  | none => rfl
  | some t =>
    have hunits := (size_trackBlock t).2
    have hle := h t rfl
    simp only [placeBlock]
    omega

/-- The blocks of a row of places, one behind the other. -/
def blocks (places : List (Option Track)) : ByteArray := joined (places.map placeBlock)

theorem blocks_cons (p : Option Track) (places : List (Option Track)) :
    blocks (p :: places) = placeBlock p ++ blocks places := rfl

theorem blocks_append (a b : List (Option Track)) : blocks (a ++ b) = blocks a ++ blocks b := by
  rw [blocks, List.map_append, joined_append]
  rfl

/-- A track whose block lies where the reader is, with a length that is not zero, is taken. -/
theorem readTracks_some {file : ByteArray} {length : Nat → Nat} {t : Track} {index start : Nat}
    (rest : Nat) (hold : HoldsAt file start (trackBlock t)) (ht : Countable t) (hne : length index ≠ 0) :
    readTracks file .extended length (rest + 1) index start =
      (readTracks file .extended length rest (index + 1) (start + length index)).map
        (described t :: ·) := by
  have hsize := (size_trackBlock t).1
  have hfits := hold.fits
  simp only [readTracks]
  rw [if_neg hne, if_neg (by omega), readTrack_of_holdsAt index hold ht]
  cases readTracks file .extended length rest (index + 1) (start + length index) <;> rfl

/-- Where no track header has room behind it, nothing more is read. -/
theorem readTracks_of_end {file : ByteArray} {variant : Variant} {length : Nat → Nat} {start : Nat}
    (h : file.size < start + headerSize) :
    ∀ rest index : Nat, readTracks file variant length rest index start = .ok []
  | 0, _ => rfl
  | rest + 1, index => by
    simp only [readTracks, if_pos h, readTracks_of_end h rest]
    split <;> rfl

/-- As long as the lengths read are those of the blocks written, the reader takes
them track by track, and goes on behind them. -/
theorem readTracks_places {file : ByteArray} {length : Nat → Nat} (rest : Nat) :
    ∀ (places : List (Option Track)) {index start : Nat},
    HoldsAt file start (blocks places) →
    (∀ i (h : i < places.length), length (index + i) = (placeBlock places[i]).size) →
    (∀ t, some t ∈ places → Countable t) →
    readTracks file .extended length (places.length + rest) index start =
      (readTracks file .extended length rest (index + places.length) (start + (blocks places).size)).map
        ((places.filterMap id).map described ++ ·)
  | [], index, start, _, _, _ => by
    simp only [List.length_nil, Nat.zero_add, Nat.add_zero]
    show _ = Except.map _ (readTracks file .extended length rest index start)
    cases readTracks file .extended length rest index start <;> rfl
  | p :: places, index, start, hold, hlen, hcount => by
    rw [blocks_cons, holdsAt_append] at hold
    have hfirst : length index = (placeBlock p).size := hlen 0 (by simp)
    have hlen' : ∀ i (hi : i < places.length), length (index + 1 + i) = (placeBlock places[i]).size := by
      intro i hi
      have := hlen (i + 1) (by simp; omega)
      rwa [← Nat.add_assoc, Nat.add_right_comm] at this
    have ih := readTracks_places rest places hold.2 hlen' fun t ht => hcount t (by simp [ht])
    have hsize : (blocks (p :: places)).size = (placeBlock p).size + (blocks places).size := by
      rw [blocks_cons, ByteArray.size_append]
    have hnext : places.length + 1 + rest = places.length + rest + 1 := by omega
    have hindex : index + (places.length + 1) = index + 1 + places.length := by omega
    rw [hsize, List.length_cons, hnext, hindex, ← Nat.add_assoc]
    cases p with
    | none =>
      simp only [readTracks]
      rw [if_pos (hfirst.trans ByteArray.size_empty)]
      exact ih
    | some t =>
      have hne : length index ≠ 0 := by
        have hblock : headerSize ≤ length index := hfirst ▸ (size_trackBlock t).1
        have hpos : 0 < headerSize := by decide
        omega
      rw [readTracks_some _ hold.1 (hcount t (by simp)) hne, hfirst, ih]
      cases readTracks file .extended length rest (index + 1 + places.length)
        (start + (placeBlock (some t)).size + (blocks places).size) <;> rfl

/-- The first byte of the first block is the first of its signature. -/
theorem byteAt_blocks {file : ByteArray} : ∀ {places : List (Option Track)} {start : Nat},
    HoldsAt file start (blocks places) → places.filterMap id ≠ [] →
    byteAt file start = 0x54
  | none :: places, start, hold, hne => by
    rw [blocks_cons, holdsAt_append] at hold
    exact byteAt_blocks hold.2 hne
  | some t :: places, start, hold, _ => by
    rw [blocks_cons, holdsAt_append] at hold
    have hsig := (holdsAt_trackBlock hold.1).1
    have hfirst := hsig.byteAt (show 0 < trackSignature.size by rw [size_trackSignature]; decide)
    exact hfirst.trans (by decide +kernel)

/-! ## The file -/

/-- What the table in the header says of the length of a block. -/
def tableLength (file : ByteArray) (index : Nat) : Nat := (byteAt file (0x34 + index)).toNat * 0x100

/-- The byte of the table that stands for a block. -/
def lengthEntry (p : Option Track) : UInt8 := ((placeBlock p).size / 0x100).toUInt8

theorem size_creatorField : (extendedSignature ++ sliceOrZero creator 0 14).size = 0x30 := by
  decide +kernel

/-- A file of the extended variant: its numbers of cylinders and sides, the table of
lengths, and what lies behind the header. -/
def extendedFile (cylinders sides : UInt8) (lengths : List UInt8) (body : ByteArray) : ByteArray :=
  extendedSignature ++ sliceOrZero creator 0 14 ++ byteList [cylinders, sides, 0, 0] ++
    field lengthSlots lengths ++ body

section ExtendedFile

variable (cylinders sides : UInt8) (lengths : List UInt8) (body : ByteArray)

/-- Where the parts of such a file lie. -/
theorem holdsAt_extendedFile :
    let file := extendedFile cylinders sides lengths body
    HoldsAt file 0 extendedSignature ∧ HoldsAt file 0x30 (byteList [cylinders, sides, 0, 0]) ∧
      HoldsAt file 0x34 (field lengthSlots lengths) ∧ HoldsAt file headerSize body := by
  intro file
  have h : HoldsAt file 0 (extendedSignature ++ sliceOrZero creator 0 14 ++
      byteList [cylinders, sides, 0, 0] ++ field lengthSlots lengths ++ body) := holdsAt_of_eq rfl
  rw [holdsAt_append, ByteArray.size_append, ByteArray.size_append, size_creatorField, size_byteList,
    field, size_sliceOrZero, holdsAt_append, ByteArray.size_append, size_creatorField, size_byteList,
    holdsAt_append, size_creatorField, holdsAt_append] at h
  obtain ⟨⟨⟨⟨hsig, -⟩, hhead⟩, htable⟩, hblocks⟩ := h
  exact ⟨hsig, hhead, htable, hblocks⟩

theorem size_extendedFile :
    (extendedFile cylinders sides lengths body).size = headerSize + body.size := by
  rw [extendedFile, ByteArray.size_append, ByteArray.size_append, ByteArray.size_append, size_creatorField,
    size_byteList, field, size_sliceOrZero]
  rfl

/-- The numbers of cylinders and sides in the header. -/
theorem byteAt_extendedFile {i : Nat} (hi : i < 4) :
    byteAt (extendedFile cylinders sides lengths body) (0x30 + i) = [cylinders, sides, 0, 0][i]?.getD 0 := by
  obtain ⟨-, hhead, -, -⟩ := holdsAt_extendedFile cylinders sides lengths body
  rw [hhead.byteAt (by rw [size_byteList]; exact hi), byteAt_byteList]

variable {cylinders sides lengths body}

theorem tableLength_extendedFile {i : Nat} (h : i < lengths.length) (hi : i < lengthSlots) :
    tableLength (extendedFile cylinders sides lengths body) i = lengths[i].toNat * 0x100 := by
  obtain ⟨-, -, htable, -⟩ := holdsAt_extendedFile cylinders sides lengths body
  rw [← List.take_append_drop lengthSlots lengths] at htable
  have hfirst := holdsAt_field htable (List.length_take_le ..)
  have hlt : i < (lengths.take lengthSlots).length := by
    rw [List.length_take]
    omega
  have hbyte := hfirst.byteAt (by rw [size_byteList]; exact hlt)
  rw [List.take_append_drop, byteAt_byteList, List.getElem?_eq_getElem hlt, List.getElem_take] at hbyte
  rw [tableLength, hbyte]
  rfl

theorem declares_extendedFile {count : Nat} (h : count = cylinders.toNat * max sides.toNat 1) :
    Declares (extendedFile cylinders sides lengths body) .extended
      (tableLength (extendedFile cylinders sides lengths body)) count := by
  obtain ⟨hsig, -, -, hbody⟩ := holdsAt_extendedFile cylinders sides lengths body
  refine ⟨?_, ?_, hsig.beginsWith, rfl⟩
  · have := hbody.fits
    omega
  · rw [byteAt_extendedFile _ _ _ _ (show 0 < 4 by omega), byteAt_extendedFile _ _ _ _ (show 1 < 4 by omega),
      h]
    show _ = cylinders.toNat * (max sides 1).toNat
    rw [toNat_max]
    rfl

end ExtendedFile

end File

namespace Image

theorem toBytes_eq (d : Image) : d.toBytes =
    extendedFile d.cylinders.toUInt8 (max d.sides 1) (d.places.map lengthEntry) (blocks d.places) := by
  have hblocks : (d.places.map (·.map trackBlock)).map (·.getD .empty) = d.places.map placeBlock := by
    rw [List.map_map]
    exact List.map_congr_left fun p _ => by cases p <;> rfl
  rw [blocks, ← hblocks, extendedFile, ← foldl_append]
  simp only [toBytes]
  refine congrFun (congr (congrArg List.foldl ?_) ?_) _
  · funext out block
    cases block with
    | some block => rfl
    | none => exact (ByteArray.append_empty).symm
  · refine congrArg (_ ++ field lengthSlots ·) ?_
    rw [List.map_map]
    exact List.map_congr_left fun p _ => by cases p <;> rfl

theorem holdsAt_toBytes (d : Image) : HoldsAt d.toBytes headerSize (blocks d.places) := by
  obtain ⟨-, -, -, hblocks⟩ := holdsAt_extendedFile d.cylinders.toUInt8 (max d.sides 1)
    (d.places.map lengthEntry) (blocks d.places)
  rwa [toBytes_eq]

theorem size_toBytes (d : Image) : d.toBytes.size = headerSize + (blocks d.places).size := by
  rw [toBytes_eq, size_extendedFile]

theorem tableLength_toBytes {d : Image} {i : Nat} (h : i < d.places.length) (hi : i < lengthSlots) :
    tableLength d.toBytes i = (placeBlock d.places[i]).size / 0x100 % 0x100 * 0x100 := by
  rw [toBytes_eq, tableLength_extendedFile (by rwa [List.length_map]) hi, List.getElem_map]
  rfl

theorem declares_toBytes {d : Image} (h : d.cylinders ≤ 255) :
    Declares d.toBytes .extended (tableLength d.toBytes) d.places.length := by
  have hcount : d.cylinders.toUInt8.toNat = d.cylinders := UInt8.toNat_ofNat_of_lt' (Nat.lt_succ_of_le h)
  rw [toBytes_eq]
  refine declares_extendedFile ?_
  rw [length_places, hcount, toNat_max, Nat.max_assoc]
  rfl

/-- A written file is read place by place, as far as the table goes. -/
theorem parse_toBytes_eq {d : Image} (hsides : 1 ≤ d.sides) (hcyl : d.cylinders ≤ 255) {n : Nat}
    (hn : n ≤ d.places.length) (hslots : n ≤ lengthSlots)
    (hfit : ∀ t, some t ∈ d.places.take n → Storable t) :
    Image.parse d.toBytes =
      (readTracks d.toBytes .extended (tableLength d.toBytes) (d.places.length - n) n
        (headerSize + (blocks (d.places.take n)).size)).map fun rest =>
          { sides := d.sides, tracks := ((d.places.take n).filterMap id).map described ++ rest,
            dirty := false } := by
  have hblocks := d.holdsAt_toBytes
  have hlen : (d.places.take n).length = n := List.length_take_of_le hn
  rw [← List.take_append_drop n d.places, blocks_append, holdsAt_append] at hblocks
  have htable : ∀ i (hi : i < (d.places.take n).length),
      tableLength d.toBytes (0 + i) = (placeBlock (d.places.take n)[i]).size := by
    intro i hi
    rw [Nat.zero_add, tableLength_toBytes (by omega) (by omega), List.getElem_take]
    refine size_placeBlock fun t ht => (hfit t ?_).block
    rw [← ht, ← List.getElem_take]
    exact List.getElem_mem hi
  have hread := readTracks_places (d.places.length - n) (d.places.take n) hblocks.1 htable
    fun t ht => (hfit t ht).toCountable
  rw [hlen, Nat.add_sub_cancel' hn, Nat.zero_add] at hread
  have hsides' : max (byteAt d.toBytes 0x31) 1 = d.sides := by
    rw [UInt8.le_iff_toNat_le] at hsides
    rw [toBytes_eq, byteAt_extendedFile _ _ _ _ (show 1 < 4 by omega)]
    show max (max d.sides 1) 1 = d.sides
    rw [← UInt8.toNat_inj, toNat_max, toNat_max, Nat.max_assoc, Nat.max_self]
    exact Nat.max_eq_left hsides
  rw [parse_of_declares (declares_toBytes hcyl), hread, hsides']
  cases readTracks d.toBytes .extended (tableLength d.toBytes) (d.places.length - n) n
    (headerSize + (blocks (d.places.take n)).size) <;> rfl

end Image

/-! ## Disks that fit -/

/-- A disk that the file format has room for. -/
structure Image.Fits (d : Image) : Prop extends d.Ordered where
  places : d.cylinders * d.sides.toNat ≤ lengthSlots
  sectors : ∀ t ∈ d.tracks, t.sectors.length ≤ sectorSlots
  data : ∀ t ∈ d.tracks, ∀ s ∈ t.sectors, s.data.size ≤ 0xFFFF
  blocks : ∀ t ∈ d.tracks, (trackBlock t).size ≤ 255 * 0x100

/-- Where the table ends, the reader takes the first byte behind it for a length.
That is a byte of a signature and not zero, so one more track is read; but the place
of any further one is lost. -/
theorem Image.tableLength_behind {d : Image} (hne : d.places.filterMap id ≠ []) :
    tableLength d.toBytes lengthSlots = 0x54 * 0x100 := by
  have : byteAt d.toBytes (0x34 + lengthSlots) = 0x54 := byteAt_blocks d.holdsAt_toBytes hne
  rw [tableLength, this]
  rfl

/-- The place behind those that the table has room for is read. -/
theorem Image.readTracks_behind {d : Image} {last : Option Track}
    (hlast : d.places.drop lengthSlots = [last]) (hcount : ∀ t, last = some t → Countable t) :
    readTracks d.toBytes .extended (tableLength d.toBytes) 1 lengthSlots
      (headerSize + (blocks (d.places.take lengthSlots)).size) =
        .ok (([last].filterMap id).map described) := by
  have hblocks := d.holdsAt_toBytes
  have hsize := d.size_toBytes
  have hsplit : d.places.take lengthSlots ++ [last] = d.places := hlast ▸ List.take_append_drop ..
  rw [← hsplit, blocks_append, holdsAt_append] at hblocks
  rw [← hsplit, blocks_append, ByteArray.size_append] at hsize
  cases last with
  | none =>
    refine readTracks_of_end ?_ 1 lengthSlots
    have : (blocks [none]).size = 0 := by decide
    have hpos : 0 < headerSize := by decide
    omega
  | some t =>
    have hblock := hblocks.2
    rw [blocks_cons, holdsAt_append] at hblock
    have hmem : t ∈ d.places.filterMap id := by
      rw [← hsplit]
      simp
    have hnz : tableLength d.toBytes lengthSlots ≠ 0 := by
      rw [tableLength_behind (List.ne_nil_of_mem hmem)]
      decide
    rw [readTracks_some 0 hblock.1 (hcount t rfl) hnz]
    rfl

/-- Where the table has room for all places, or for all but one, the tracks at these come
back with the sectors that the blocks have room to describe. -/
theorem Image.parse_toBytes_places {d : Image} (hsides : 1 ≤ d.sides)
    (hplaces : d.places.length ≤ lengthSlots + 1)
    (hfit : ∀ t, some t ∈ d.places → Storable t) :
    Image.parse d.toBytes = .ok
      { sides := d.sides, tracks := (d.places.filterMap id).map described, dirty := false } := by
  have hcyl : d.cylinders ≤ 255 :=
    Nat.le_trans (Nat.le_trans d.cylinders_le_length_places hplaces) (by decide)
  have htake : ∀ n t, some t ∈ d.places.take n → Storable t := fun n t ht =>
    hfit t (List.mem_of_mem_take ht)
  by_cases hslots : d.places.length ≤ lengthSlots
  · rw [parse_toBytes_eq hsides hcyl (Nat.le_refl _) hslots (htake _), List.take_length, Nat.sub_self]
    simp only [readTracks, Except.map, List.append_nil]
  · have hlen : d.places.length = lengthSlots + 1 := by omega
    obtain ⟨last, hlast⟩ : ∃ last, d.places.drop lengthSlots = [last] :=
      List.length_eq_one_iff.mp (by rw [List.length_drop, hlen, Nat.add_sub_cancel_left])
    have hsplit : d.places.take lengthSlots ++ [last] = d.places := hlast ▸ List.take_append_drop ..
    have hlastCount : ∀ t, last = some t → Countable t := by
      rintro t rfl
      refine (hfit t ?_).toCountable
      rw [← hsplit]
      simp
    rw [parse_toBytes_eq hsides hcyl (by omega) (Nat.le_refl _) (htake _), hlen, Nat.add_sub_cancel_left,
      readTracks_behind hlast hlastCount]
    simp only [Except.map, ← List.map_append, ← List.filterMap_append, hsplit]

/-- What is read back of a disk, at most. -/
def Image.readBack (d : Image) : Image := { d with tracks := d.tracks.map described, dirty := false }

/-- A disk with its tracks in order comes back with all of them. -/
theorem Image.Ordered.parse_toBytes_described {d : Image} (h : d.Ordered)
    (hplaces : d.cylinders * d.sides.toNat ≤ lengthSlots + 1) (hfit : ∀ t ∈ d.tracks, Storable t) :
    Image.parse d.toBytes = .ok d.readBack := by
  have hlen : d.places.length = d.cylinders * d.sides.toNat := by rw [length_places, h.max_sides]
  rw [parse_toBytes_places h.sides_pos (hlen ▸ hplaces) fun t ht => hfit t (h.mem_places_iff.mp ht),
    h.places_filterMap]
  rfl

/-- **A disk that fits the file format comes back as it was.** -/
theorem Image.Fits.parse_toBytes {d : Image} (h : d.Fits) : Image.parse d.toBytes = .ok d.markClean := by
  have hfit : ∀ t ∈ d.tracks, Storable t := fun t ht =>
    ⟨⟨Nat.lt_of_le_of_lt (h.sectors t ht) (by decide), fun s hs => Nat.lt_succ_of_le (h.data t ht s hs)⟩,
      h.blocks t ht⟩
  rw [h.toOrdered.parse_toBytes_described (Nat.le_succ_of_le h.places) hfit, readBack,
    List.map_congr_left fun t ht => described_eq_self (h.sectors t ht), List.map_id']
  rfl

/-- Three cylinders of two sides with a track on two of their six places: one with
a short sector and one of no bytes, the other with no sector at all. -/
def patchyDisk : Image where
  sides := 2
  tracks := [
    ⟨0, 1, 0x4E, 0xE5, [⟨⟨0, 1, 0xC1, 2⟩, 0, 0, byteRun 3 7⟩, ⟨⟨9, 9, 0xC2, 0⟩, 0x20, 0x60, .empty⟩]⟩,
    ⟨2, 0, 0x52, 0, []⟩]
  dirty := true

theorem parse_toBytes_patchyDisk :
    patchyDisk.Fits ∧ Image.parse patchyDisk.toBytes = .ok patchyDisk.markClean := by
  have hfits : patchyDisk.Fits :=
    ⟨⟨by decide, by decide, by decide⟩, by decide +kernel, by decide, by decide +kernel, by decide +kernel⟩
  exact ⟨hfits, hfits.parse_toBytes⟩

end AmstradCpc.Disk
