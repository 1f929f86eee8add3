/-
What is written to sectors is read from them. Writing takes the sectors of a transfer
one by one, each when its data has come; reading gathers them all before the first byte
goes out. Both walk the same row of record numbers, which wraps after 255, and no number
comes twice in it. So what one sector is written with stays as it is while the others
are written, and `performAll_written` can say of a whole transfer what each of its
sectors holds in the end, `read_after_write` that a read of the same sectors gives it.
-/
import Mathlib.Data.List.Forall2
import Mathlib.Data.List.Flatten
import AmstradCpc.Proofs.Fdc.Exchange

namespace AmstradCpc.Fdc

open Disk (Image Sector)

/-! ## The row of record numbers -/

/-- The row is the first number and, unless that is the last, the row from the next on. -/
theorem recordsFrom_cons (first last : UInt8) : recordsFrom first last =
    first :: if first = last then [] else recordsFrom (first + 1) last := by
  rw [recordsFrom, List.range_succ_eq_map, List.map_cons, List.map_map]
  refine congrArg₂ List.cons (UInt8.add_zero first) ?_
  split
  · next heq => rw [heq, UInt8.sub_self, UInt8.toNat_zero, List.range_zero, List.map_nil]
  · next hne =>
    have hleft : (last - first).toNat = (last - (first + 1)).toNat + 1 := by
      have h := Transfer.sectorsLeft_next
        (t := { (default : Transfer) with record := first, lastRecord := last }) hne
      exact (Nat.succ.inj h).symm
    rw [recordsFrom, hleft]
    refine List.map_congr_left fun i _ => ?_
    show first + (i + 1).toUInt8 = first + 1 + i.toUInt8
    rw [show (i + 1).toUInt8 = i.toUInt8 + 1 from UInt8.ofNat_add i 1, UInt8.add_comm i.toUInt8,
      UInt8.add_assoc]

theorem recordsFrom_self (last : UInt8) : recordsFrom last last = [last] := by
  rw [recordsFrom_cons, if_pos rfl]

theorem recordsFrom_of_ne {first last : UInt8} (h : first ≠ last) :
    recordsFrom first last = first :: recordsFrom (first + 1) last := by
  rw [recordsFrom_cons, if_neg h]

theorem mem_recordsFrom {first last r : UInt8} :
    r ∈ recordsFrom first last ↔ (r - first).toNat ≤ (last - first).toNat := by
  simp only [recordsFrom, List.mem_map, List.mem_range, Nat.lt_succ_iff]
  constructor
  · rintro ⟨i, hi, rfl⟩
    have hback : first + i.toUInt8 - first = i.toUInt8 := by
      rw [UInt8.add_comm, UInt8.add_sub_cancel]
    rw [hback]
    exact Nat.le_trans (Nat.mod_le ..) hi
  · intro h
    refine ⟨(r - first).toNat, h, ?_⟩
    rw [show (r - first).toNat.toUInt8 = r - first from UInt8.ofNat_toNat, UInt8.add_comm,
      UInt8.sub_add_cancel]

/-- No number comes twice: the row from the next number on would have to go round to the
first, past the last. -/
theorem not_mem_recordsFrom_succ {first last : UInt8} (h : first ≠ last) :
    first ∉ recordsFrom (first + 1) last := by
  intro hmem
  rw [mem_recordsFrom] at hmem
  obtain ⟨f, hf⟩ : ∃ f, f = first.toNat := ⟨_, rfl⟩
  obtain ⟨l, hl⟩ : ∃ l, l = last.toNat := ⟨_, rfl⟩
  have hne : f ≠ l := fun he => h (UInt8.toNat_inj.mp (by omega))
  have := first.toNat_lt
  have := last.toNat_lt
  simp only [UInt8.toNat_sub, UInt8.toNat_add, UInt8.toNat_one, ← hf, ← hl] at hmem
  omega

theorem getLastD_recordsFrom (first last default : UInt8) :
    (recordsFrom first last).getLastD default = last := by
  rw [recordsFrom, List.range_succ, List.map_append, List.map_singleton, List.getLastD_concat,
    show (last - first).toNat.toUInt8 = last - first from UInt8.ofNat_toNat, UInt8.add_comm,
    UInt8.sub_add_cancel]

/-! ## A sector after it was written to -/

/-- The data of a sector begins with what was written to it. -/
theorem sliceOrZero_overwrite {s : Sector} {data : ByteArray} (h : data.size ≤ s.data.size)
    (deleted : Bool) : sliceOrZero (s.overwrite data deleted).data 0 data.size = data := by
  have hcut : data.extract 0 s.data.size = data := by
    rw [← Nat.max_eq_left h, ByteArray.extract_zero_max_size]
  have hrest : ∀ b : ByteArray, sliceOrZero b 0 0 = .empty := fun b =>
    ByteArray.size_eq_zero_iff.mp (size_sliceOrZero b 0 0)
  show sliceOrZero (overwriteStart s.data data) 0 data.size = data
  rw [overwriteStart, hcut, sliceOrZero_append _ (Nat.le_refl _), Nat.sub_self, hrest,
    ByteArray.append_empty]

theorem or_and_self (a b : UInt8) : (a ||| b) &&& b = b := by
  refine UInt8.toNat_inj.mp (Nat.eq_of_testBit_eq fun i => ?_)
  rw [UInt8.toNat_and, UInt8.toNat_or, Nat.testBit_and, Nat.testBit_or]
  cases a.toNat.testBit i <;> cases b.toNat.testBit i <;> rfl

theorem deleted_overwrite (s : Sector) (data : ByteArray) (deleted : Bool) :
    (s.overwrite data deleted).deleted = deleted := by
  simp only [Sector.deleted, Sector.overwrite]
  cases deleted
  · rw [if_neg (by decide), UInt8.and_assoc, UInt8.not_and_self, UInt8.and_zero]
    rfl
  · rw [if_pos rfl, or_and_self]
    rfl

theorem cylinder_modifyDisk (f : Fdc) (unit u : Nat) (change : Image → Image) :
    (f.modifyDisk unit change).cylinder u = f.cylinder u := by
  simp only [cylinder, modifyDisk, drive_modifyDrive]
  split
  · cases f.drive u <;> rfl
  · rfl

theorem isReady_modifyDisk (f : Fdc) (unit u : Nat) (change : Image → Image) :
    (f.modifyDisk unit change).isReady u = f.isReady u := by
  have hdisk : ((f.modifyDisk unit change).disk u).isSome = (f.disk u).isSome := by
    rw [disk_modifyDisk]
    split
    · exact Option.isSome_map
    · rfl
  have hmotor : (f.modifyDisk unit change).motor = f.motor ∧ (f.modifyDisk unit change).spin = f.spin := by
    rw [modifyDisk, modifyDrive_eq]
    exact ⟨rfl, rfl⟩
  simp only [isReady, hdisk, hmotor]

/-- With its data complete, a sector that is there is written; the transfer is over if
it was the last, and goes on with the next otherwise. -/
theorem commitSector_found {f : Fdc} {t : Transfer} {s : Sector} (h : f.sector? t t.record = some s)
    (data : ByteArray) : ∃ g : Fdc,
      f.commitSector t data = (if t.record = t.lastRecord
        then g.enterResult (t.result abnormal endOfCylinder 0)
        else g.beginWrite { t with record := t.record + 1 }) ∧
      g.isReady t.select.unit = f.isReady t.select.unit ∧
      g.sector? t t.record = some (s.overwrite data t.deleted) ∧
      ∀ other, other ≠ t.record → g.sector? t other = f.sector? t other := by
  obtain ⟨d, hd, hs⟩ := Option.bind_eq_some_iff.mp h
  obtain ⟨d', hw, hself, hother⟩ := Image.sector_writeSector hs data t.deleted
  have hsector : ∀ r, (f.modifyDisk t.select.unit fun _ => d').sector? t r =
      d'.sector (f.cylinder t.select.unit) t.select.head t.cylinder r := by
    intro r
    rw [sector?, disk_modifyDisk, if_pos rfl, hd, cylinder_modifyDisk]
    rfl
  refine ⟨f.modifyDisk t.select.unit fun _ => d', ?_, isReady_modifyDisk .., ?_, fun other hne => ?_⟩
  · simp only [commitSector, hd, Option.bind_some, hw]
  · rw [hsector, hself]
  · rw [hsector, hother other hne, sector?, hd]
    rfl

theorem beginWrite_found {f : Fdc} {t : Transfer} {s : Sector} (h : f.sector? t t.record = some s) :
    f.beginWrite t = { f with phase := .writing t .empty } := by
  rw [beginWrite_eq, beginPhase_found h]

/-! ## The sectors of a transfer after they were written to -/

/-- In `g` the chunks are in the sectors that a transfer finds under the given records,
and all else that it finds is as in `f`. -/
structure Wrote (t : Transfer) (f g : Fdc) (records : List UInt8) (chunks : List (List UInt8)) :
    Prop where
  ready : g.isReady t.select.unit = f.isReady t.select.unit
  written : List.Forall₂ (fun record chunk => ∃ s, f.sector? t record = some s ∧
    g.sector? t record = some (s.overwrite (byteList chunk) t.deleted)) records chunks
  others : ∀ record, record ∉ records → g.sector? t record = f.sector? t record

/-- A sector that comes before the others keeps what was written to it. -/
theorem Wrote.cons {t : Transfer} {f g h : Fdc} {record : UInt8} {records : List UInt8}
    {chunk : List UInt8} {chunks : List (List UInt8)} (hrest : Wrote t g h records chunks)
    (hnew : record ∉ records) (hready : g.isReady t.select.unit = f.isReady t.select.unit)
    {s : Sector} (hs : f.sector? t record = some s)
    (hself : g.sector? t record = some (s.overwrite (byteList chunk) t.deleted))
    (hother : ∀ other, other ≠ record → g.sector? t other = f.sector? t other) :
    Wrote t f h (record :: records) (chunk :: chunks) where
  ready := hrest.ready.trans hready
  written := by
    refine .cons ⟨s, hs, by rw [hrest.others record hnew, hself]⟩ ?_
    have hne : ∀ r ∈ records, r ≠ record := fun r hr heq => hnew (heq ▸ hr)
    refine ((List.forall₂_and_left records chunks).mpr ⟨hne, hrest.written⟩).imp ?_
    exact fun r _ ⟨hr, s', hs', hw⟩ => ⟨s', hother r hr ▸ hs', hw⟩
  others r hr := by
    rw [List.mem_cons, not_or] at hr
    rw [hrest.others r hr.2, hother r hr.1]

/-- **A transfer to sectors that are there writes them all**, each with its chunk of
the data, and ends at the last. -/
theorem performAll_written {t : Transfer} : ∀ (chunks : List (List UInt8)) {f : Fdc},
    f.phase = .writing t .empty →
    (∀ record ∈ recordsFrom t.record t.lastRecord, ∃ s, f.sector? t record = some s) →
    chunks.length = (recordsFrom t.record t.lastRecord).length →
    (∀ chunk ∈ chunks, chunk.length = t.sectorBytes) →
    ∃ g, Wrote t f g (recordsFrom t.record t.lastRecord) chunks ∧
      f.performAll (chunks.flatten.map .write) =
        g.enterResult ({ t with record := t.lastRecord }.result abnormal endOfCylinder 0)
  | [], f, _, _, hcount, _ => by
    rw [recordsFrom_cons] at hcount
    cases hcount
  | chunk :: chunks, f, hp, hfound, hcount, hchunks => by
    have hchunk := hchunks chunk (by simp)
    have hne : chunk ≠ [] := by
      rintro rfl
      have : 1 ≤ t.sectorBytes := Nat.le_max_left ..
      simp only [List.length_nil] at hchunk
      omega
    have hcommit : f.performAll (chunk.map .write) =
        { f with phase := .idle }.commitSector t (byteList chunk) := by
      have hstep : ∀ g v received, g.phase = .writing t received → write g v = g.write v :=
        fun _ _ _ _ => rfl
      have h := foldl_writing hstep chunk hp hne
        (by rw [ByteArray.size_empty, Nat.zero_add, hchunk])
      rw [ByteArray.empty_append] at h
      exact List.foldl_map.trans h
    obtain ⟨s, hs⟩ := hfound t.record (by rw [recordsFrom_cons]; exact List.mem_cons_self)
    obtain ⟨g, hg, hready, hself, hother⟩ :=
      commitSector_found (f := { f with phase := .idle }) hs (byteList chunk)
    rw [List.flatten_cons, List.map_append, performAll_append, hcommit, hg]
    by_cases hlast : t.record = t.lastRecord
    · rw [hlast, recordsFrom_self] at hcount ⊢
      have hnil : chunks = [] := List.eq_nil_of_length_eq_zero (Nat.succ.inj hcount)
      subst hnil
      rw [if_pos rfl]
      have hrest : Wrote t g g [] [] := ⟨rfl, .nil, fun _ _ => rfl⟩
      exact ⟨g, hlast ▸ hrest.cons (by simp) hready hs hself hother, by rw [← hlast]; rfl⟩
    · rw [recordsFrom_of_ne hlast] at hcount hfound ⊢
      have hnew := not_mem_recordsFrom_succ hlast
      -- The sectors still to come are as they were, so the transfer finds them.
      have hfound' : ∀ r ∈ recordsFrom (t.record + 1) t.lastRecord, ∃ s, g.sector? t r = some s := by
        intro r hr
        rw [hother r fun heq => hnew (heq ▸ hr)]
        exact hfound r (List.mem_cons_of_mem _ hr)
      obtain ⟨s', hs'⟩ := hfound' (t.record + 1) (by rw [recordsFrom_cons]; exact List.mem_cons_self)
      have hbegin : g.beginWrite { t with record := t.record + 1 } =
          { g with phase := .writing { t with record := t.record + 1 } .empty } := beginWrite_found hs'
      rw [if_neg hlast, hbegin]
      obtain ⟨h, hwrote, hperform⟩ := performAll_written (t := { t with record := t.record + 1 }) chunks
        (f := { g with phase := .writing { t with record := t.record + 1 } .empty }) rfl hfound'
        (Nat.succ.inj hcount) fun c hc => hchunks c (by simp [hc])
      have hrest : Wrote t g h (recordsFrom (t.record + 1) t.lastRecord) chunks :=
        ⟨hwrote.ready, hwrote.written, hwrote.others⟩
      exact ⟨h, hrest.cons hnew hready hs hself hother, hperform⟩

/-! ## Reading -/

theorem dataError_cases (v : UInt8) : v &&& dataError = 0 ∨ v &&& dataError = dataError := by
  have h : ∀ n < 256, n.toUInt8 &&& dataError = 0 ∨ n.toUInt8 &&& dataError = dataError := by
    decide +kernel
  have hv := h v.toNat v.toNat_lt
  rwa [show v.toNat.toUInt8 = v from UInt8.ofNat_toNat] at hv

/-- A status byte that says nothing, or that there was a data error. -/
def ErrorOnly (status : UInt8) : Prop := status = 0 ∨ status = dataError

theorem ErrorOnly.or {status : UInt8} (h : ErrorOnly status) (v : UInt8) :
    ErrorOnly (status ||| v &&& dataError) := by
  rcases h with rfl | rfl <;> rcases dataError_cases v with hv | hv <;> rw [hv]
  · exact .inl rfl
  · exact .inr rfl
  · exact .inr rfl
  · exact .inr rfl

/-- Sectors that are there and are marked as the transfer expects are gathered to the
last, whatever errors they have. -/
theorem gather_found {t : Transfer} {find : UInt8 → Option Sector} {records : List UInt8}
    {chunks : List (List UInt8)}
    (h : List.Forall₂ (fun record chunk => ∃ s, find record = some s ∧ s.deleted = t.deleted ∧
      sliceOrZero s.data 0 t.sectorLength = byteList chunk) records chunks) :
    ∀ {g : Gathered} (record : UInt8), ErrorOnly g.status1 → ErrorOnly g.status2 →
      ∃ error1 error2, ErrorOnly error1 ∧ ErrorOnly error2 ∧
        gather t find g record records =
          (⟨g.data ++ byteList chunks.flatten, error1 ||| endOfCylinder, error2⟩,
            records.getLastD record) := by
  induction h with
  | nil =>
    intro g record h1 h2
    refine ⟨g.status1, g.status2, h1, h2, ?_⟩
    rw [List.flatten_nil, show byteList [] = .empty from rfl, ByteArray.append_empty]
    rfl
  | @cons r chunk records chunks hr _ ih =>
    intro g record h1 h2
    obtain ⟨s, hs, hdeleted, hdata⟩ := hr
    let added : Gathered := ⟨g.data ++ byteList chunk, g.status1 ||| s.status1 &&& dataError,
      g.status2 ||| s.status2 &&& dataError⟩
    have hadd : g.add t s = added := by
      simp only [added, Gathered.add, hdata, hdeleted, bne_self_eq_false, Bool.false_eq_true, if_false,
        UInt8.or_zero]
    obtain ⟨error1, error2, he1, he2, hrest⟩ := ih (g := added) r (h1.or s.status1) (h2.or s.status2)
    refine ⟨error1, error2, he1, he2, ?_⟩
    rw [gather, hs]
    show gather t find (g.add t s) r records = _
    rw [hadd, hrest, List.flatten_cons, byteList_append, ← ByteArray.append_assoc, List.getLastD_cons]

theorem pending_startRead (f : Fdc) (data : ByteArray) (outcome : List UInt8) :
    (f.startRead data outcome).phase.pending = data.data.toList ++ outcome := by
  unfold startRead
  split
  · next hempty =>
    have hsize : data.size = 0 := beq_iff_eq.mp hempty
    have hnil : data.data.toList = [] :=
      List.eq_nil_of_length_eq_zero (Array.length_toList.trans hsize)
    rw [hnil]
    rfl
  · rfl

/-! ## Reading after writing -/

/-- The bytes of a command that transfers sectors. The length of the gap between these
is not used. -/
def Transfer.command (t : Transfer) (first gap : UInt8) : List UInt8 :=
  [first, t.select.bits, t.cylinder, t.head, t.record, t.sizeCode, t.lastRecord, gap, t.shortLength]

/-- The command that writes the sectors of a transfer. -/
def Transfer.writer (t : Transfer) : Command := if t.deleted then .writeDeletedData else .writeData

/-- The command that reads them. -/
def Transfer.reader (t : Transfer) : Command := if t.deleted then .readDeletedData else .readData

theorem ofBytes_writer {t : Transfer} {first : UInt8} (h : Command.ofByte first = t.writer) (gap : UInt8) :
    Request.ofBytes (t.command first gap) = .write t := by
  rcases t with ⟨_, _, _, _, _, _, _, - | -⟩ <;>
    simp only [Request.ofBytes, Transfer.command, h, Transfer.writer, Bool.false_eq_true, if_false, if_true]

theorem ofBytes_reader {t : Transfer} {first : UInt8} (h : Command.ofByte first = t.reader) (gap : UInt8) :
    Request.ofBytes (t.command first gap) = .read t := by
  rcases t with ⟨_, _, _, _, _, _, _, - | -⟩ <;>
    simp only [Request.ofBytes, Transfer.command, h, Transfer.reader, Bool.false_eq_true, if_false, if_true]

/-- Commands of nine bytes are carried out with the ninth. -/
theorem performAll_transfer {f : Fdc} (hidle : f.phase = .idle) (t : Transfer) {first : UInt8}
    (h : (Command.ofByte first).length = 9) (gap : UInt8) :
    ∃ p, f.performAll ((t.command first gap).map .write) =
      { f with phase := p }.run (.ofBytes (t.command first gap)) :=
  performAll_of_idle hidle (List.cons_ne_nil first _) h.symm

/-- Data as long as so many sectors can be cut into one chunk for each. -/
theorem exists_chunks (n : Nat) : ∀ (count : Nat) {bytes : List UInt8}, bytes.length = count * n →
    ∃ chunks : List (List UInt8), chunks.flatten = bytes ∧ chunks.length = count ∧
      ∀ chunk ∈ chunks, chunk.length = n
  | 0, bytes, h => by
    rw [Nat.zero_mul] at h
    exact ⟨[], (List.eq_nil_of_length_eq_zero h).symm, rfl, by simp⟩
  | count + 1, bytes, h => by
    rw [Nat.succ_mul] at h
    obtain ⟨chunks, hflat, hcount, hchunks⟩ :=
      exists_chunks n count (show (bytes.drop n).length = count * n by rw [List.length_drop]; omega)
    refine ⟨bytes.take n :: chunks, ?_, by rw [List.length_cons, hcount], ?_⟩
    · rw [List.flatten_cons, hflat, List.take_append_drop]
    · rw [List.forall_mem_cons]
      exact ⟨List.length_take_of_le (by omega), hchunks⟩

/-- A drive that is ready has a disk in it, on which a transfer looks for its sectors. -/
theorem exists_disk_of_isReady {f : Fdc} {t : Transfer} (h : f.isReady t.select.unit = true) :
    ∃ d, f.disk t.select.unit = some d ∧
      f.sector? t = d.sector (f.cylinder t.select.unit) t.select.head t.cylinder := by
  obtain ⟨d, hd⟩ := exists_disk_of_ready h
  refine ⟨d, hd, funext fun record => ?_⟩
  rw [sector?, hd]
  rfl

/-- A read of sectors that hold these chunks has them all to be read, and the result
after them. -/
theorem pending_readSectors {f : Fdc} {t : Transfer} (hready : f.isReady t.select.unit = true)
    {chunks : List (List UInt8)}
    (h : List.Forall₂ (fun record chunk => ∃ s, f.sector? t record = some s ∧ s.deleted = t.deleted ∧
      sliceOrZero s.data 0 t.sectorLength = byteList chunk) (recordsFrom t.record t.lastRecord) chunks) :
    ∃ error1 error2, ErrorOnly error1 ∧ ErrorOnly error2 ∧
      (f.readSectors t).phase.pending = chunks.flatten ++
        { t with record := t.lastRecord }.result abnormal (error1 ||| endOfCylinder) error2 := by
  obtain ⟨d, hd, hsector⟩ := exists_disk_of_isReady hready
  rw [hsector] at h
  obtain ⟨error1, error2, he1, he2, hgather⟩ :=
    gather_found h (g := { data := .empty }) t.record (.inl rfl) (.inl rfl)
  refine ⟨error1, error2, he1, he2, ?_⟩
  simp only [readSectors, hd, hready, hgather, pending_startRead, getLastD_recordsFrom,
    ByteArray.empty_append]
  rfl

/-- Sectors that were long enough hold the chunks that they were written with. -/
theorem Wrote.held {t : Transfer} {f g : Fdc} {records : List UInt8} {chunks : List (List UInt8)}
    (h : Wrote t f g records chunks)
    (hfound : ∀ record ∈ records, ∃ s, f.sector? t record = some s ∧ t.sectorLength ≤ s.data.size)
    (hchunks : ∀ chunk ∈ chunks, chunk.length = t.sectorLength) :
    List.Forall₂ (fun record chunk => ∃ s, g.sector? t record = some s ∧ s.deleted = t.deleted ∧
      sliceOrZero s.data 0 t.sectorLength = byteList chunk) records chunks := by
  refine List.forall₂_iff_zip.mpr ⟨h.written.length_eq, fun {record chunk} hmem => ?_⟩
  obtain ⟨hr, hc⟩ := List.of_mem_zip hmem
  obtain ⟨s, hs, hsize⟩ := hfound record hr
  obtain ⟨s', hs', hwritten⟩ := List.forall₂_zip h.written hmem
  cases hs.symm.trans hs'
  refine ⟨_, hwritten, deleted_overwrite .., ?_⟩
  rw [← hchunks chunk hc, ← size_byteList] at hsize ⊢
  exact sliceOrZero_overwrite hsize t.deleted

/-- A drive that is ready begins to write with the first sector asked for. -/
theorem performAll_writeCommand {f : Fdc} (hidle : f.phase = .idle) {t : Transfer}
    (hready : f.isReady t.select.unit = true) {writer : UInt8} (hwriter : Command.ofByte writer = t.writer)
    (gap : UInt8) :
    f.performAll ((t.command writer gap).map .write) = { f with phase := f.beginPhase t } := by
  have hnine : (Command.ofByte writer).length = 9 := by
    rw [hwriter, Transfer.writer]
    cases t.deleted <;> rfl
  obtain ⟨p, hp⟩ := performAll_transfer hidle t hnine gap
  rw [hp, ofBytes_writer hwriter]
  show (if f.isReady t.select.unit then _ else _) = _
  rw [if_pos hready, beginWrite_eq]
  rfl

/-- A write command with the data for all its sectors. -/
theorem performAll_writer {f : Fdc} (hidle : f.phase = .idle) {t : Transfer}
    (hready : f.isReady t.select.unit = true)
    (hfound : ∀ record ∈ recordsFrom t.record t.lastRecord, ∃ s, f.sector? t record = some s)
    {writer : UInt8} (hwriter : Command.ofByte writer = t.writer) (gap : UInt8)
    {chunks : List (List UInt8)} (hcount : chunks.length = (recordsFrom t.record t.lastRecord).length)
    (hchunks : ∀ chunk ∈ chunks, chunk.length = t.sectorBytes) :
    ∃ g, Wrote t f g (recordsFrom t.record t.lastRecord) chunks ∧
      f.performAll ((t.command writer gap ++ chunks.flatten).map .write) =
        g.enterResult ({ t with record := t.lastRecord }.result abnormal endOfCylinder 0) := by
  obtain ⟨s, hs⟩ := hfound t.record (by rw [recordsFrom_cons]; exact List.mem_cons_self)
  rw [List.map_append, performAll_append, performAll_writeCommand hidle hready hwriter gap, beginPhase_found hs]
  obtain ⟨g, hwrote, hperform⟩ :=
    performAll_written chunks (f := { f with phase := .writing t .empty }) rfl hfound hcount hchunks
  exact ⟨g, ⟨hwrote.ready, hwrote.written, hwrote.others⟩, hperform⟩

/-- **What is written to the sectors of a transfer is read from them.** If the drive is
ready and has every sector that is asked for, each long enough, then the data of a
write goes in byte by byte, the write ends at the last sector, and a read with the same
parameters gives exactly that data and ends at the same sector. No sector is missing
then and none is marked otherwise than expected: the only other thing that the result
can report is an error that a sector had before. -/
theorem read_after_write {f : Fdc} (hidle : f.phase = .idle) {t : Transfer}
    (hready : f.isReady t.select.unit = true) (hsize : t.sizeCode ≠ 0 ∨ t.shortLength ≠ 0)
    (hfound : ∀ record ∈ recordsFrom t.record t.lastRecord,
      ∃ s, f.sector? t record = some s ∧ t.sectorLength ≤ s.data.size)
    {writer reader : UInt8} (hwriter : Command.ofByte writer = t.writer)
    (hreader : Command.ofByte reader = t.reader) {bytes : List UInt8}
    (hlen : bytes.length = (recordsFrom t.record t.lastRecord).length * t.sectorLength)
    (gap gap' : UInt8) :
    let last := { t with record := t.lastRecord }
    let wrote := f.performAll ((t.command writer gap ++ bytes).map .write)
    let asked := (wrote.reads 7).2.performAll ((t.command reader gap').map .write)
    ((wrote.reads 7).1 = last.result abnormal endOfCylinder 0 ∧ (wrote.reads 7).2.phase = .idle) ∧
      ∃ status1 ∈ [endOfCylinder, endOfCylinder ||| dataError], ∃ status2 ∈ [0, dataError],
        (asked.reads (bytes.length + 7)).1 = bytes ++ last.result abnormal status1 status2 ∧
          (asked.reads (bytes.length + 7)).2.phase = .idle := by
  intro last wrote asked
  have hlength : t.sectorBytes = t.sectorLength := by
    refine Nat.max_eq_right ?_
    rw [Transfer.sectorLength]
    split
    · next hzero =>
      have hshort : t.shortLength ≠ 0 := hsize.resolve_left fun hne => hne hzero
      have : t.shortLength.toNat ≠ 0 := fun heq => hshort (UInt8.toNat_inj.mp heq)
      omega
    · rw [Nat.shiftLeft_eq]
      exact Nat.mul_pos (by decide) (Nat.two_pow_pos _)
  obtain ⟨chunks, rfl, hcount, hchunks⟩ := exists_chunks _ _ hlen
  obtain ⟨g, hwrote, hperform⟩ := performAll_writer hidle hready
    (fun record hr => (hfound record hr).imp fun _ hs => hs.1) hwriter gap hcount (hlength ▸ hchunks)
  have hdone : wrote.reads 7 = (last.result abnormal endOfCylinder 0, { g with phase := .idle }) := by
    show Fdc.reads (f.performAll _) 7 = _
    rw [hperform]
    exact reads_result (last.result_ne_nil _ _ _)
  have hnine : (Command.ofByte reader).length = 9 := by
    rw [hreader, Transfer.reader]
    cases t.deleted <;> rfl
  obtain ⟨p, hp⟩ := performAll_transfer (f := { g with phase := .idle }) rfl t hnine gap'
  have hasked : asked = { g with phase := p }.readSectors t := by
    show (wrote.reads 7).2.performAll _ = _
    rw [hdone, hp, ofBytes_reader hreader, run]
  obtain ⟨error1, error2, he1, he2, hpending⟩ := pending_readSectors (f := { g with phase := p })
    (hwrote.ready.trans hready) (hwrote.held hfound hchunks)
  rw [← hasked] at hpending
  have hco : asked.phase.Coherent := hasked ▸ coherent_run _ (.read t)
  have hread := reads_pending _ hco hpending
    fun hnil => last.result_ne_nil _ _ _ (List.append_eq_nil_iff.mp hnil).2
  have hall : (chunks.flatten ++ last.result abnormal (error1 ||| endOfCylinder) error2).length =
      chunks.flatten.length + 7 := List.length_append
  rw [hall] at hread
  refine ⟨by rw [hdone]; exact ⟨rfl, rfl⟩, _, ?_, _, ?_, by rw [hread], by rw [hread]⟩
  · rcases he1 with rfl | rfl <;> decide
  · rcases he2 with rfl | rfl <;> decide

/-- A ready drive with two short sectors, of which the first had a data error, is marked
as deleted and has a byte more than is asked for. -/
def twoShortSectors : Fdc :=
  initial.performAll [.attach 0, .insert 0 ⟨1, [⟨0, 0, 0, 0, [⟨⟨0, 0, 255, 0⟩, 0x20, 0x40, byteList [1, 2, 3]⟩,
    ⟨⟨0, 0, 0, 0⟩, 0, 0x20, byteList [4, 5]⟩]⟩], false⟩, .setMotor true, .clock]

/-- Two bytes each for the sectors 255 and 0. -/
def roundTransfer : Transfer := ⟨⟨0⟩, 0, 0, 255, 0, 0, 2, false⟩

/-- The numbers of the sectors go round. -/
theorem read_after_write_round :
    let wrote := twoShortSectors.performAll ((roundTransfer.command 0x45 0x2A ++ [6, 7, 8, 9]).map .write)
    let asked := (wrote.reads 7).2.performAll ((roundTransfer.command 0x46 0x2A).map .write)
    (twoShortSectors.phase = .idle ∧ twoShortSectors.isReady roundTransfer.select.unit = true ∧
      (∀ record ∈ recordsFrom 255 0, ∃ s,
        twoShortSectors.sector? roundTransfer record = some s ∧ roundTransfer.sectorLength ≤ s.data.size) ∧
      (recordsFrom 255 0).length * roundTransfer.sectorLength = 4) ∧
      ∃ status1 ∈ [endOfCylinder, endOfCylinder ||| dataError], ∃ status2 ∈ [0, dataError],
        (asked.reads 11).1 =
          [6, 7, 8, 9] ++ { roundTransfer with record := 0 }.result abnormal status1 status2 := by
  intro wrote asked
  have hrecords : recordsFrom 255 0 = [255, 0] := rfl
  have hfound : ∀ record ∈ recordsFrom 255 0, ∃ s,
      twoShortSectors.sector? roundTransfer record = some s ∧ roundTransfer.sectorLength ≤ s.data.size := by
    intro record hr
    rw [hrecords, List.mem_pair] at hr
    rcases hr with rfl | rfl
    · exact ⟨⟨⟨0, 0, 255, 0⟩, 0x20, 0x40, byteList [1, 2, 3]⟩, rfl, by decide⟩
    · exact ⟨⟨⟨0, 0, 0, 0⟩, 0, 0x20, byteList [4, 5]⟩, rfl, by decide⟩
  have hready : twoShortSectors.isReady roundTransfer.select.unit = true := rfl
  obtain ⟨-, status1, h1, status2, h2, hread, -⟩ :=
    read_after_write (f := twoShortSectors) rfl hready (.inr (by decide)) hfound
      (show Command.ofByte 0x45 = _ from rfl) (show Command.ofByte 0x46 = _ from rfl)
      (show [6, 7, 8, 9].length = _ from rfl) 0x2A 0x2A
  exact ⟨⟨rfl, hready, hfound, rfl⟩, status1, h1, status2, h2, hread⟩

end AmstradCpc.Fdc
