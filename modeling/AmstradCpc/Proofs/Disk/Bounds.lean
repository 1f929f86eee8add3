/-
When the reader of disk files stays inside the file. A file names the tracks it
holds, each track the sectors it holds, and every one of them says how much room
it takes; so where a sector's data begins is a sum of lengths that the file gives
itself. Data that is cut short is filled up, but data that would begin past the
end of the file cannot be taken at all.

`parse_eq_sectorPastEnd_iff` says for every row of bytes when that happens and on
which track; `parse_inside_iff` that otherwise the answer is a disk or one of the
reasons why the bytes are none.
-/
import AmstradCpc.Disk.File
import AmstradCpc.Proofs.Bytes

namespace AmstradCpc.Disk

namespace File

/-! ## What a file says about itself -/

/-- Where item `k` begins, of a row of items the first of which begins at `first`. -/
def startOf (room : Nat → Nat) (first k : Nat) : Nat := first + ((List.range k).map room).sum

theorem startOf_succ (room : Nat → Nat) (first k : Nat) :
    startOf room first (k + 1) = startOf room first k + room k := by
  simp [startOf, List.range_succ, Nat.add_assoc]

/-- The room that a sector takes, which is described at `info`. -/
def sectorRoom (file : ByteArray) (variant : Variant) (trackCode : UInt8) (info : Nat) : Nat :=
  match variant with
  | .standard => sectorLength trackCode
  | .extended => wordAt file (info + 6)

/-- Where the data of sector `k` begins, on the track whose block is at `start`. -/
def sectorStart (file : ByteArray) (variant : Variant) (start k : Nat) : Nat :=
  startOf (fun k => sectorRoom file variant (byteAt file (start + 0x14)) (start + 0x18 + k * 8))
    (start + headerSize) k

/-- The sectors that a track block describes; more than it has room for are not looked at. -/
def sectorCount (file : ByteArray) (start : Nat) : Nat :=
  min (byteAt file (start + 0x15)).toNat sectorSlots

/-- The block at `start` is labelled as that of a track. -/
def Labelled (file : ByteArray) (start : Nat) : Prop :=
  file.extract start (start + trackSignature.size) = trackSignature

/-- A sector of the track at `start` would begin past the end of the file. -/
def Overruns (file : ByteArray) (variant : Variant) (start : Nat) : Prop :=
  ∃ k < sectorCount file start, file.size < sectorStart file variant start k

/-- What the block about the disk says: the variant of the file, the length of
each track block, and for how many tracks it has one. -/
structure Declares (file : ByteArray) (variant : Variant) (length : Nat → Nat) (count : Nat) : Prop where
  size : headerSize ≤ file.size
  count : count = (byteAt file 0x30).toNat * (max (byteAt file 0x31) 1).toNat
  layout : match variant with
    | .extended => beginsWith file extendedSignature = true ∧
        length = fun index => (byteAt file (0x34 + index)).toNat * 0x100
    | .standard => beginsWith file extendedSignature = false ∧
        beginsWith file standardSignature = true ∧ length = fun _ => wordAt file 0x32

/-- Where the block of track `i` begins. -/
def trackStart (length : Nat → Nat) (i : Nat) : Nat := startOf length headerSize i

/-- Track `i` is unformatted, or its block lies in the file, is labelled, and so
do the beginnings of its sectors. -/
def Readable (file : ByteArray) (variant : Variant) (length : Nat → Nat) (i : Nat) : Prop :=
  length i ≠ 0 → trackStart length i + headerSize ≤ file.size ∧
    Labelled file (trackStart length i) ∧ ¬Overruns file variant (trackStart length i)

/-- The reader comes to track `i`, the first that is not readable, because a
sector of it would begin past the end of the file. -/
structure BreaksAt (file : ByteArray) (variant : Variant) (length : Nat → Nat) (count i : Nat) :
    Prop where
  lt : i < count
  before : ∀ j < i, Readable file variant length j
  formatted : length i ≠ 0
  block : trackStart length i + headerSize ≤ file.size
  labelled : Labelled file (trackStart length i)
  overruns : Overruns file variant (trackStart length i)

/-! ## One track -/

theorem readSectors_eq_none_iff (file : ByteArray) (variant : Variant) (trackCode : UInt8)
    (info first : Nat) : ∀ count done : Nat,
    let room := fun k => sectorRoom file variant trackCode (info + k * 8)
    readSectors file variant trackCode count (info + done * 8) (startOf room first done) = none ↔
      ∃ k, done ≤ k ∧ k < done + count ∧ file.size < startOf room first k
  | 0, done => by
    simp only [readSectors]
    exact ⟨nofun, fun ⟨k, hle, hlt, _⟩ => absurd hlt (by omega)⟩
  | count + 1, done => by
    intro room
    simp only [readSectors]
    split
    · next hlt => exact ⟨fun _ => ⟨done, by omega, by omega, hlt⟩, fun _ => rfl⟩
    · next hle =>
      have ih := readSectors_eq_none_iff file variant trackCode info first count (done + 1)
      simp only [startOf_succ, Nat.add_mul, Nat.one_mul, ← Nat.add_assoc] at ih
      rw [Option.map_eq_none_iff]
      refine ih.trans ⟨fun ⟨k, h1, h2, h3⟩ => ⟨k, by omega, by omega, h3⟩, fun ⟨k, h1, h2, h3⟩ => ?_⟩
      have hne : k ≠ done := fun he => hle (he ▸ h3)
      exact ⟨k, by omega, by omega, h3⟩

/-- Reading a track gives one of three answers. -/
theorem readTrack_cases (file : ByteArray) (variant : Variant) (index start : Nat) :
    (¬Labelled file start ∧ readTrack file variant index start = .error (.badTrack index)) ∨
      (Labelled file start ∧ Overruns file variant start ∧
        readTrack file variant index start = .error (.sectorPastEnd index)) ∨
      (Labelled file start ∧ ¬Overruns file variant start ∧
        ∃ t, readTrack file variant index start = .ok t) := by
  simp only [readTrack]
  by_cases hl : Labelled file start
  · right
    rw [if_neg (by simpa [Labelled] using hl)]
    have hnone := readSectors_eq_none_iff file variant (byteAt file (start + 0x14)) (start + 0x18)
      (start + headerSize) (sectorCount file start) 0
    have hfirst (room : Nat → Nat) (first : Nat) : startOf room first 0 = first := rfl
    simp only [Nat.zero_mul, Nat.add_zero, hfirst, Nat.zero_le, true_and, Nat.zero_add] at hnone
    simp only [sectorCount] at hnone
    cases hs : readSectors file variant (byteAt file (start + 0x14))
      (min (byteAt file (start + 0x15)).toNat sectorSlots) (start + 0x18) (start + headerSize) with
    | none => exact .inl ⟨hl, hnone.mp hs, rfl⟩
    | some sectors =>
      refine .inr ⟨hl, fun ho => ?_, _, rfl⟩
      rw [hnone.mpr ho] at hs
      cases hs
  · exact .inl ⟨hl, if_pos (by simpa [Labelled] using hl)⟩

theorem Readable.readTrack {file : ByteArray} {variant : Variant} {length : Nat → Nat} {i : Nat}
    (h : Readable file variant length i) (hne : length i ≠ 0) :
    ∃ t, File.readTrack file variant i (trackStart length i) = .ok t := by
  obtain ⟨-, hl, ho⟩ := h hne
  rcases readTrack_cases file variant i (trackStart length i) with ⟨hn, -⟩ | ⟨-, hn, -⟩ | ⟨-, -, h⟩
  · exact absurd hl hn
  · exact absurd hn ho
  · exact h

theorem labelled_of_readTrack {file : ByteArray} {variant : Variant} {index start : Nat} {t : Track}
    (h : readTrack file variant index start = .ok t) :
    Labelled file start ∧ ¬Overruns file variant start := by
  rcases readTrack_cases file variant index start with ⟨-, he⟩ | ⟨-, -, he⟩ | ⟨hl, ho, -⟩
  · cases he.symm.trans h
  · cases he.symm.trans h
  · exact ⟨hl, ho⟩

/-! ## All tracks -/

/-- Of the tracks from `index` on, `i` is the first that is not readable, and
`e` is what is wrong with it. -/
structure FailsAt (file : ByteArray) (variant : Variant) (length : Nat → Nat) (index i : Nat)
    (e : ParseError) : Prop where
  le : index ≤ i
  before : ∀ j, index ≤ j → j < i → Readable file variant length j
  formatted : length i ≠ 0
  block : trackStart length i + headerSize ≤ file.size
  error : readTrack file variant i (trackStart length i) = .error e

theorem failsAt_succ {file : ByteArray} {variant : Variant} {length : Nat → Nat} {index i : Nat}
    {e : ParseError} (h : Readable file variant length index) :
    FailsAt file variant length index i e ↔ FailsAt file variant length (index + 1) i e := by
  constructor
  · intro hf
    have hne : index ≠ i := by
      rintro rfl
      obtain ⟨t, ht⟩ := h.readTrack hf.formatted
      cases ht.symm.trans hf.error
    have := hf.le
    exact { hf with le := by omega, before := fun j hj => hf.before j (by omega) }
  · intro hf
    have := hf.le
    refine { hf with le := by omega, before := fun j hj hlt => ?_ }
    by_cases he : j = index
    · rw [he]; exact h
    · exact hf.before j (by omega) hlt

/-- A first track that is not readable is where the reading fails or ends. -/
theorem FailsAt.eq_index {file : ByteArray} {variant : Variant} {length : Nat → Nat} {index i : Nat}
    {e : ParseError} (hf : FailsAt file variant length index i e)
    (h : ¬Readable file variant length index) : i = index :=
  Nat.le_antisymm (Nat.le_of_not_lt fun hlt => h (hf.before index (Nat.le_refl _) hlt)) hf.le

/-- Reading the tracks from `index` on fails where the first of them fails. -/
theorem readTracks_eq_error_iff (file : ByteArray) (variant : Variant) (length : Nat → Nat)
    (e : ParseError) : ∀ remaining index : Nat,
    readTracks file variant length remaining index (trackStart length index) = .error e ↔
      ∃ i < index + remaining, FailsAt file variant length index i e
  | 0, index => by
    simp only [readTracks]
    exact ⟨nofun, fun ⟨i, hlt, hf⟩ => absurd hf.le (by omega)⟩
  | remaining + 1, index => by
    have ih := readTracks_eq_error_iff file variant length e remaining (index + 1)
    have hstart : trackStart length (index + 1) = trackStart length index + length index := startOf_succ ..
    rw [hstart, Nat.add_right_comm] at ih
    simp only [readTracks]
    by_cases hz : length index = 0
    · simp only [hz, Nat.add_zero] at ih
      simp only [if_pos hz, ih, failsAt_succ (fun hne => absurd hz hne), ← Nat.add_assoc]
    rw [if_neg hz]
    by_cases hfit : file.size < trackStart length index + headerSize
    · rw [if_pos hfit]
      refine ⟨nofun, fun ⟨i, hlt, hf⟩ => ?_⟩
      have he := hf.eq_index fun h => by have := (h hz).1; omega
      have := hf.block
      rw [he] at this
      omega
    rw [if_neg hfit]
    have hblock : trackStart length index + headerSize ≤ file.size := by omega
    cases h : readTrack file variant index (trackStart length index) with
    | error e' =>
      have hn : ¬Readable file variant length index := fun hr => by
        obtain ⟨t, ht⟩ := hr.readTrack hz
        cases ht.symm.trans h
      constructor
      · intro he
        obtain rfl : e' = e := Except.error.inj he
        exact ⟨index, by omega, Nat.le_refl _, fun j hj hlt => absurd hlt (by omega), hz, hblock, h⟩
      · rintro ⟨i, -, hf⟩
        have he := hf.error
        rw [hf.eq_index hn, h] at he
        exact congrArg Except.error (Except.error.inj he)
    | ok t =>
      have hr : Readable file variant length index := fun _ => ⟨hblock, labelled_of_readTrack h⟩
      simp only [failsAt_succ hr, ← Nat.add_assoc, ← ih]
      cases readTracks file variant length remaining (index + 1)
        (trackStart length index + length index) <;>
        simp [bind, Except.bind, pure, Except.pure]

end File

/-! ## The whole file -/

open File

/-- A file that says what it holds is read as it says. -/
theorem Image.parse_of_declares {file : ByteArray} {variant : Variant} {length : Nat → Nat} {count : Nat}
    (h : Declares file variant length count) :
    Image.parse file = (readTracks file variant length count 0 headerSize).map
      fun tracks => { sides := max (byteAt file 0x31) 1, tracks, dirty := false } := by
  have hsize : ¬file.size < headerSize := by have := h.size; omega
  simp only [Image.parse, if_neg hsize]
  have hlayout := h.layout
  rw [h.count]
  cases variant with
  | extended =>
    simp only at hlayout
    rw [if_pos hlayout.1, hlayout.2]
    rfl
  | standard =>
    simp only at hlayout
    rw [if_neg (by simp [hlayout.1]), if_pos hlayout.2.1, hlayout.2.2]
    rfl

/-- Bytes are too short, or have no signature, or say what they hold. -/
theorem Image.parse_cases (file : ByteArray) :
    Image.parse file = .error .tooShort ∨ Image.parse file = .error .badSignature ∨
      ∃ variant length count, Declares file variant length count := by
  by_cases hsize : file.size < headerSize
  · exact .inl (Image.parse_of_short hsize)
  by_cases he : beginsWith file extendedSignature = true
  · exact .inr (.inr ⟨.extended, _, _, by omega, rfl, he, rfl⟩)
  by_cases hs : beginsWith file standardSignature = true
  · exact .inr (.inr ⟨.standard, _, _, by omega, rfl, by simpa using he, hs, rfl⟩)
  · exact .inr (.inl (by simp only [Image.parse, if_neg hsize, if_neg he, if_neg hs]))

/-- A file breaks at a track where the reading fails because a sector of that
track would begin past the end of the file. -/
theorem File.breaksAt_iff {file : ByteArray} {variant : Variant} {length : Nat → Nat} {count i : Nat} :
    BreaksAt file variant length count i ↔
      ∃ j < count, FailsAt file variant length 0 j (.sectorPastEnd i) := by
  constructor
  · intro h
    refine ⟨i, h.lt, Nat.zero_le _, fun j _ => h.before j, h.formatted, h.block, ?_⟩
    rcases readTrack_cases file variant i (trackStart length i) with ⟨hl, -⟩ | ⟨-, -, he⟩ | ⟨-, ho, -⟩
    · exact absurd h.labelled hl
    · exact he
    · exact absurd h.overruns ho
  · rintro ⟨j, hlt, hf⟩
    have hj := hf.error
    rcases readTrack_cases file variant j (trackStart length j) with ⟨-, he⟩ | ⟨hl, ho, he⟩ | ⟨-, -, t, he⟩
    · cases he.symm.trans hj
    · obtain rfl : j = i := by simpa using he.symm.trans hj
      exact ⟨hlt, fun k => hf.before k (Nat.zero_le _), hf.formatted, hf.block, hl, ho⟩
    · cases he.symm.trans hj

/-- A sector is found to begin past the end of the file on exactly the track at
which the file breaks. -/
theorem Image.parse_eq_sectorPastEnd_iff (file : ByteArray) (i : Nat) :
    Image.parse file = .error (.sectorPastEnd i) ↔
      ∃ variant length count, Declares file variant length count ∧
        BreaksAt file variant length count i := by
  have hread {variant length count} (h : Declares file variant length count) :
      Image.parse file = .error (.sectorPastEnd i) ↔ BreaksAt file variant length count i := by
    have htracks := readTracks_eq_error_iff file variant length (.sectorPastEnd i) count 0
    rw [Nat.zero_add, ← breaksAt_iff] at htracks
    rw [← htracks, Image.parse_of_declares h]
    show _ ↔ readTracks file variant length count 0 headerSize = _
    cases readTracks file variant length count 0 headerSize <;> simp [Except.map]
  constructor
  · intro h
    rcases Image.parse_cases file with hs | hs | ⟨variant, length, count, hd⟩
    · cases hs.symm.trans h
    · cases hs.symm.trans h
    · exact ⟨variant, length, count, hd, (hread hd).mp h⟩
  · rintro ⟨variant, length, count, hd, hb⟩
    exact (hread hd).mpr hb

/-- **When reading a file stays inside it.** For every row of bytes, the answer is
a disk or one of the three reasons why the bytes are none, unless the file breaks
at one of the tracks that it declares. -/
theorem Image.parse_inside_iff (file : ByteArray) :
    ((∃ d, Image.parse file = .ok d) ∨ Image.parse file = .error .tooShort ∨
        Image.parse file = .error .badSignature ∨ ∃ i, Image.parse file = .error (.badTrack i)) ↔
      ∀ variant length count, Declares file variant length count →
        ∀ i, ¬BreaksAt file variant length count i := by
  have hpast : (∃ i, Image.parse file = .error (.sectorPastEnd i)) ↔
      ∃ variant length count, Declares file variant length count ∧
        ∃ i, BreaksAt file variant length count i := by
    simp only [Image.parse_eq_sectorPastEnd_iff]
    exact ⟨fun ⟨i, v, l, c, hd, hb⟩ => ⟨v, l, c, hd, i, hb⟩,
      fun ⟨v, l, c, hd, i, hb⟩ => ⟨i, v, l, c, hd, hb⟩⟩
  constructor
  · intro h variant length count hd i hb
    obtain ⟨i, he⟩ := hpast.mpr ⟨variant, length, count, hd, i, hb⟩
    rw [he] at h
    simp at h
  · intro h
    cases hp : Image.parse file with
    | ok d => exact .inl ⟨d, rfl⟩
    | error e =>
      cases e with
      | tooShort => exact .inr (.inl rfl)
      | badSignature => exact .inr (.inr (.inl rfl))
      | badTrack i => exact .inr (.inr (.inr ⟨i, rfl⟩))
      | sectorPastEnd i =>
        obtain ⟨variant, length, count, hd, i, hb⟩ := hpast.mp ⟨i, hp⟩
        exact absurd hb (h variant length count hd i)

/-- A file of one track whose block is all there is: it describes two sectors of
128 bytes, of which the first begins where the file ends. -/
def cutAfterBlock : ByteArray :=
  standardSignature ++ byteRun 37 0 ++ byteList [1, 1, 0, 2] ++ byteRun 204 0 ++
    trackSignature ++ byteRun 9 0 ++ byteList [2] ++ byteRun 234 0

/-- The second sector of that track begins past the end of the file. -/
theorem parse_cutAfterBlock : Image.parse cutAfterBlock = .error (.sectorPastEnd 0) := by
  rw [Image.parse_eq_sectorPastEnd_iff]
  refine ⟨.standard, fun _ => wordAt cutAfterBlock 0x32, 1, ⟨?_, ?_, ?_, ?_, rfl⟩, ?_⟩
  · decide +kernel
  · decide +kernel
  · decide +kernel
  · decide +kernel
  · constructor
    · exact Nat.zero_lt_one
    · exact fun j hj => absurd hj (Nat.not_lt_zero j)
    · decide +kernel
    · decide +kernel
    · show cutAfterBlock.extract 0x100 (0x100 + 12) = trackSignature
      decide +kernel
    · exact ⟨1, by decide +kernel, by decide +kernel⟩

end AmstradCpc.Disk
