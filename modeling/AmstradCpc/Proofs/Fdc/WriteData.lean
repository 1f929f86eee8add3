/-
How many bytes a write takes for each sector, against how many a read of the sector gives. A read
works out the data of a sector as a whole; a write looks whether it has enough only after each byte
that has come. The two agree unless the command asks for sectors of no bytes: a read gives none for
them, and a write takes one byte for each all the same and puts it at the beginning of the sector.
-/
import AmstradCpc.Proofs.Fdc.ReadData

namespace AmstradCpc.Fdc

open Disk (Image Sector)

variable {f g : Fdc} {t : Transfer}

/-! ## Beginning a sector -/

theorem sector?_of_drives (h : g.drives = f.drives) (t : Transfer) (record : UInt8) :
    g.sector? t record = f.sector? t record := by
  simp only [sector?, disk, cylinder, drive, h]

/-- A write is over, or waits for the data of a sector that the disk has. -/
def Transfer.OnSector (t : Transfer) (g : Fdc) : Prop :=
  (∃ left, g.phase = .result left) ∨
    ∃ record received s, g.phase = .writing { t with record } received ∧ g.sector? t record = some s

theorem onSector_beginWrite (f : Fdc) (t : Transfer) (record : UInt8) :
    t.OnSector (f.beginWrite { t with record }) := by
  rw [beginWrite_eq]
  cases hs : f.sector? { t with record } record with
  | some s => exact .inr ⟨record, .empty, s, beginPhase_found hs, hs⟩
  | none => exact .inl ⟨_, beginPhase_missing hs⟩

theorem onSector_write (h : t.OnSector g) (v : UInt8) : t.OnSector (g.write v) := by
  rcases h with ⟨left, hp⟩ | ⟨record, received, s, hp, hs⟩
  · rw [write_of_wantsRead (by simp [wantsRead_eq, hp])]
    exact .inl ⟨left, hp⟩
  · simp only [write, hp]
    split
    · obtain ⟨written, hcommit, -⟩ :=
        commitSector_found (f := { g with phase := .idle }) (t := { t with record }) hs (received.push v)
      rw [hcommit]
      split
      · exact .inl ⟨_, rfl⟩
      · exact onSector_beginWrite written t (record + 1)
    · exact .inr ⟨record, received.push v, s, rfl, hs⟩

theorem onSector_performAll : ∀ (bytes : List UInt8) {g : Fdc}, t.OnSector g →
    t.OnSector (g.performAll (bytes.map .write))
  | [], _, h => h
  | v :: bytes, _, h => onSector_performAll bytes (onSector_write h v)

/-- What is written while a result is to be read is lost. -/
theorem performAll_write_of_result {left : List UInt8} (h : f.phase = .result left) :
    ∀ bytes : List UInt8, f.performAll (bytes.map .write) = f
  | [] => rfl
  | v :: bytes => by
    show (f.write v).performAll (bytes.map .write) = f
    rw [write_of_wantsRead (by simp [wantsRead_eq, h]) v]
    exact performAll_write_of_result h bytes

/-! ## Taking the data of a sector -/

/-- From `f` to `g` the bytes have been written over the beginning of the sector that the transfer
has come to. All other sectors, of all disks, have stayed as they were. -/
structure WroteSector (f g : Fdc) (t : Transfer) (bytes : List UInt8) : Prop where
  written : ∀ s, f.sector? t t.record = some s → ∃ s', g.sector? t t.record = some s' ∧
    s'.data.size = s.data.size ∧ ∀ i < s.data.size,
      byteAt s'.data i = if i < bytes.length then bytes.getD i 0 else byteAt s.data i
  others : ∀ unit c side c' r, (unit, c, side, c', r) ≠
      (t.select.unit, f.cylinder t.select.unit, t.select.head, t.cylinder, t.record) →
    (g.disk unit).bind (·.sector c side c' r) = (f.disk unit).bind (·.sector c side c' r)

/-- A write takes `n` bytes for a sector: with fewer of them it waits and nothing has changed, and
with the last one they are in the sector and it comes to the next sector or to its end. -/
structure TakesSector (f : Fdc) (t : Transfer) (n : Nat) : Prop where
  waits : ∀ bytes : List UInt8, bytes.length < n →
    f.performAll (bytes.map .write) = { f with phase := .writing t (byteList bytes) }
  wrote : ∀ bytes : List UInt8, bytes.length = n → f.WroteSector (f.performAll (bytes.map .write)) t bytes
  moves : ∀ bytes : List UInt8, bytes.length = n →
    let g := f.performAll (bytes.map .write)
    g.phase = if t.record = t.lastRecord then .result (t.result abnormal endOfCylinder 0)
      else g.beginPhase { t with record := t.record + 1 }

theorem byteAt_overwrite (s : Sector) (bytes : List UInt8) (deleted : Bool) {i : Nat} (h : i < s.data.size) :
    byteAt (s.overwrite (byteList bytes) deleted).data i =
      if i < bytes.length then bytes.getD i 0 else byteAt s.data i := by
  show byteAt (overwriteStart s.data (byteList bytes)) i = _
  rw [byteAt_overwriteStart h, size_byteList, byteAt_byteList, List.getD_eq_getElem?_getD]

theorem wroteSector_commitSector {s : Sector} (h : f.sector? t t.record = some s) (bytes : List UInt8) :
    f.WroteSector (f.commitSector t (byteList bytes)) t bytes where
  written s' hs' := by
    obtain rfl : s = s' := Option.some.inj (h.symm.trans hs')
    obtain ⟨g, hg, -, hself, -⟩ := commitSector_found h (byteList bytes)
    refine ⟨s.overwrite (byteList bytes) t.deleted, ?_, s.size_overwrite .., fun i => byteAt_overwrite s bytes _⟩
    rw [hg, ← hself]
    split
    · rfl
    · exact sector?_of_drives (drives_beginWrite _ _) t t.record
  others unit c side c' r hne := by
    rw [disk_commitSector]
    split
    · next hunit =>
      subst hunit
      cases f.disk t.select.unit with
      | none => rfl
      | some d =>
        show Image.sector (Option.getD _ d) c side c' r = d.sector c side c' r
        cases hw : d.writeSector (f.cylinder t.select.unit) t.select.head t.cylinder t.record (byteList bytes)
          t.deleted with
        | none => rfl
        | some d' => exact Image.sector_writeSector_other hw fun heq => hne (congrArg (Prod.mk _) heq)
    · rfl

/-- A write that comes to a sector which the disk has takes the bytes of the sector, and one byte if
it has none. -/
theorem takesSector_of_writing (hp : f.phase = .writing t .empty) {s : Sector}
    (hs : f.sector? t t.record = some s) : f.TakesSector t t.sectorBytes := by
  have hstep : ∀ g v received, g.phase = .writing t received → write g v = g.write v := fun _ _ _ _ => rfl
  have hcommit : ∀ bytes : List UInt8, bytes.length = t.sectorBytes →
      f.performAll (bytes.map .write) = { f with phase := .idle }.commitSector t (byteList bytes) := by
    intro bytes hlen
    have hpos : 1 ≤ t.sectorBytes := Nat.le_max_left ..
    have hne : bytes ≠ [] := List.ne_nil_of_length_pos (by omega)
    have h := foldl_writing hstep bytes hp hne (by rw [ByteArray.size_empty, Nat.zero_add, hlen])
    rw [ByteArray.empty_append] at h
    exact List.foldl_map.trans h
  refine ⟨fun bytes hlen => ?_, fun bytes hlen => ?_, fun bytes hlen => ?_⟩
  · have h := foldl_writing_short hstep bytes hp (by rwa [ByteArray.size_empty, Nat.zero_add])
    rw [ByteArray.empty_append] at h
    exact List.foldl_map.trans h
  · rw [hcommit bytes hlen]
    have hwrote := wroteSector_commitSector (f := { f with phase := .idle }) hs bytes
    exact ⟨hwrote.written, hwrote.others⟩
  · intro g
    obtain ⟨written, hg, -⟩ := commitSector_found (f := { f with phase := .idle }) hs (byteList bytes)
    have hg' : g = _ := (hcommit bytes hlen).trans hg
    split at hg'
    · next hlast => rw [hg', if_pos hlast]; rfl
    · next hne =>
      rw [beginWrite_eq] at hg'
      rw [if_neg hne, hg']
      rfl

/-- A write that waits for a sector takes at least one byte for it. -/
theorem TakesSector.pos {n : Nat} (h : f.TakesSector t n) (hp : f.phase = .writing t .empty) : 0 < n := by
  refine Nat.pos_of_ne_zero fun hzero => ?_
  have hmoves : f.phase = _ := h.moves [] hzero.symm
  rw [hp] at hmoves
  split at hmoves
  · cases hmoves
  · unfold beginPhase at hmoves
    split at hmoves
    · injection hmoves with ht
      have hrecord : t.record = t.record + 1 := congrArg Transfer.record ht
      exact absurd hrecord (by grind)
    · cases hmoves

/-! ## Writing against reading -/

theorem length_payload (t : Transfer) (s : Sector) : (t.payload s).length = t.sectorLength := by
  rw [Transfer.payload, List.length_rightpad, List.length_take]
  omega

theorem sectorLength_eq_zero (t : Transfer) : t.sectorLength = 0 ↔ t.sizeCode = 0 ∧ t.shortLength = 0 := by
  unfold Transfer.sectorLength
  split
  · next hcode => rw [and_iff_right hcode, ← UInt8.toNat_inj, UInt8.toNat_zero]
  · next hcode =>
    refine iff_of_false ?_ fun h => hcode h.1
    rw [Nat.shiftLeft_eq]
    exact Nat.mul_ne_zero (by decide) (Nat.ne_of_gt (Nat.two_pow_pos _))

/-- A write takes for every sector that it comes to, whatever was written before, as many bytes as a
read gives for that sector. -/
def TakesWhatIsRead (f : Fdc) (t : Transfer) (first gap : UInt8) : Prop :=
  ∀ (bytes : List UInt8) (t' : Transfer) (s : Sector),
    let g := f.performAll ((t.command first gap ++ bytes).map .write)
    g.phase = .writing t' .empty → g.sector? t' t'.record = some s →
      g.TakesSector t' (t'.payload s).length

/-- Without its first sector a write is over at once, whatever is written after the command. -/
theorem phase_performAll_missing (hidle : f.phase = .idle) (hready : f.isReady t.select.unit = true)
    {first : UInt8} (hfirst : Command.ofByte first = t.writer) (gap : UInt8)
    (hnone : f.sector? t t.record = none) (bytes : List UInt8) :
    (f.performAll ((t.command first gap ++ bytes).map .write)).phase =
      .result (t.result abnormal noData 0) := by
  rw [List.map_append, performAll_append, performAll_writeCommand hidle hready hfirst gap,
    performAll_write_of_result (f := { f with phase := f.beginPhase t }) (beginPhase_missing hnone)]
  exact beginPhase_missing hnone

/-- The sectors that a write comes to are those of its transfer, and the disk has them. -/
theorem exists_sector_of_writing (hidle : f.phase = .idle) (hready : f.isReady t.select.unit = true)
    {first : UInt8} (hfirst : Command.ofByte first = t.writer) (gap : UInt8) {bytes : List UInt8}
    {t' : Transfer} {received : ByteArray}
    (h : (f.performAll ((t.command first gap ++ bytes).map .write)).phase = .writing t' received) :
    (∃ record, t' = { t with record }) ∧
      ∃ s, (f.performAll ((t.command first gap ++ bytes).map .write)).sector? t' t'.record = some s := by
  have hbegun : t.OnSector { f with phase := f.beginPhase t } := by
    rw [← beginWrite_eq]
    exact onSector_beginWrite f t t.record
  have hon : t.OnSector (f.performAll ((t.command first gap ++ bytes).map .write)) := by
    rw [List.map_append, performAll_append, performAll_writeCommand hidle hready hfirst gap]
    exact onSector_performAll bytes hbegun
  rcases hon with ⟨left, hp⟩ | ⟨record, _, s, hp, hs⟩
  · exact nomatch h.symm.trans hp
  · obtain ⟨rfl, -⟩ := Phase.writing.inj (h.symm.trans hp)
    exact ⟨⟨record, rfl⟩, s, hs⟩

/-- **A write takes as many bytes for its sectors as a read gives, unless it is asked for sectors of no
bytes.** A drive that is ready begins with the first sector asked for, if the disk has it. For each
sector that it comes to, of this transfer and there on the disk, it takes the bytes of the sector, or
one byte if there are none, and puts them over the beginning of the sector; then it comes to the next
sector or to its end. So a size code of zero with a length of zero is the one case where it takes more
than a read gives, and only if there is a sector to be written. -/
theorem takesWhatIsRead_iff (hidle : f.phase = .idle) (hready : f.isReady t.select.unit = true)
    {first : UInt8} (hfirst : Command.ofByte first = t.writer) (gap : UInt8) :
    f.performAll ((t.command first gap).map .write) = { f with phase := f.beginPhase t } ∧
      (∀ bytes t', let g := f.performAll ((t.command first gap ++ bytes).map .write)
        g.phase = .writing t' .empty → (∃ record, t' = { t with record }) ∧
          (∃ s, g.sector? t' t'.record = some s) ∧ g.TakesSector t' (max 1 t.sectorLength)) ∧
      (f.TakesWhatIsRead t first gap ↔
        t.sizeCode ≠ 0 ∨ t.shortLength ≠ 0 ∨ f.sector? t t.record = none) := by
  have hbegun := performAll_writeCommand hidle hready hfirst gap
  have hsectors : ∀ bytes t', let g := f.performAll ((t.command first gap ++ bytes).map .write)
      g.phase = .writing t' .empty → (∃ record, t' = { t with record }) ∧
        (∃ s, g.sector? t' t'.record = some s) ∧ g.TakesSector t' (max 1 t.sectorLength) := by
    intro bytes t' g hp
    obtain ⟨⟨record, rfl⟩, s, hs⟩ := exists_sector_of_writing hidle hready hfirst gap hp
    exact ⟨⟨record, rfl⟩, ⟨s, hs⟩, takesSector_of_writing hp hs⟩
  refine ⟨hbegun, hsectors, fun htakes => ?_, fun h bytes t' s => ?_⟩
  · by_cases hzero : t.sectorLength = 0
    · refine .inr (.inr (Option.eq_none_iff_forall_ne_some.mpr fun s hs => ?_))
      have hp : (f.performAll ((t.command first gap ++ []).map .write)).phase = .writing t .empty := by
        rw [List.append_nil, hbegun]
        exact beginPhase_found hs
      have hs' : (f.performAll ((t.command first gap ++ []).map .write)).sector? t t.record = some s := by
        rw [List.append_nil, hbegun]
        exact hs
      have hpos := (htakes [] t s hp hs').pos hp
      rw [length_payload, hzero] at hpos
      exact absurd hpos (Nat.lt_irrefl 0)
    · rw [sectorLength_eq_zero, not_and_or] at hzero
      exact hzero.imp_right .inl
  · intro g hp hs
    by_cases hnone : f.sector? t t.record = none
    · have hover := phase_performAll_missing hidle hready hfirst gap hnone bytes
      exact nomatch hp.symm.trans hover
    · have hpos : t.sectorLength ≠ 0 := by
        rw [Ne, sectorLength_eq_zero, not_and_or]
        rcases h with h | h | h
        · exact .inl h
        · exact .inr h
        · exact absurd h hnone
      obtain ⟨⟨record, rfl⟩, -, htakes⟩ := hsectors bytes t' hp
      have hlength : ({ t with record }.payload s).length = max 1 t.sectorLength :=
        (length_payload { t with record } s).trans (Nat.max_eq_right (Nat.pos_of_ne_zero hpos)).symm
      rwa [hlength]

/-- Two bytes each for two sectors. -/
theorem takesWhatIsRead_round :
    let second : Transfer := { roundTransfer with record := 0 }
    let g := twoShortSectors.performAll ((roundTransfer.command 0x45 0x2A ++ [6, 7]).map .write)
    (twoShortSectors.phase = .idle ∧ twoShortSectors.isReady roundTransfer.select.unit = true ∧
      Command.ofByte 0x45 = roundTransfer.writer) ∧
      (g.phase = .writing second .empty ∧ g.TakesSector second 2) ∧
      twoShortSectors.TakesWhatIsRead roundTransfer 0x45 0x2A := by
  intro second g
  have hready : twoShortSectors.isReady roundTransfer.select.unit = true := rfl
  have hwriter : Command.ofByte 0x45 = roundTransfer.writer := rfl
  obtain ⟨-, hsectors, htakes⟩ := takesWhatIsRead_iff (f := twoShortSectors) rfl hready hwriter 0x2A
  exact ⟨⟨rfl, hready, hwriter⟩, ⟨rfl, (hsectors [6, 7] second rfl).2.2⟩,
    htakes.mpr (.inr (.inl (by decide)))⟩

/-- One sector of no bytes. -/
def emptyTransfer : Transfer := ⟨⟨0⟩, 0, 0, 255, 0, 255, 0, false⟩

/-- A read gives nothing for the sector, but a write waits for a byte. -/
theorem not_takesWhatIsRead_empty :
    (twoShortSectors.phase = .idle ∧ twoShortSectors.isReady emptyTransfer.select.unit = true ∧
      Command.ofByte 0x45 = emptyTransfer.writer) ∧
      ¬twoShortSectors.TakesWhatIsRead emptyTransfer 0x45 0x2A := by
  refine ⟨⟨rfl, rfl, rfl⟩, fun htakes => ?_⟩
  have hp : (twoShortSectors.performAll ((emptyTransfer.command 0x45 0x2A ++ []).map .write)).phase =
      .writing emptyTransfer .empty := rfl
  exact absurd ((htakes [] emptyTransfer _ hp rfl).pos hp) (Nat.lt_irrefl 0)

end AmstradCpc.Fdc
