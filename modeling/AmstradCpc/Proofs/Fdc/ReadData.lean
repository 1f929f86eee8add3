/-
Reading sectors from start to end. The loop over the records is a relation of its own (`Reads`): it
goes on from each sector that is found, and it stops at one that is missing or at the last one asked
for. The record numbers are bytes, so it comes to the last one at some time, unless a sector is missing
before; that is how every read ends (`exists_reads`), and in one way only (`Reads.unique`).
`performAll_reader` says what the controller has for the program then.
-/
import AmstradCpc.Proofs.Fdc.ReadBack
import AmstradCpc.Proofs.Word

namespace AmstradCpc.Fdc

open Disk (Sector)

/-! ## The loop over the records -/

/-- What a read comes to. -/
structure Outcome where
  /-- The sectors found, in their order. -/
  sectors : List Sector
  /-- The record number that was asked for last. -/
  record : UInt8
  /-- That sector was found too, and is the last one. -/
  complete : Bool

/-- A read from a record on. -/
inductive Reads (find : UInt8 → Option Sector) (last : UInt8) : UInt8 → Outcome → Prop
  | missing {r : UInt8} : find r = none → Reads find last r ⟨[], r, false⟩
  | last {s : Sector} : find last = some s → Reads find last last ⟨[s], last, true⟩
  | next {r : UInt8} {s : Sector} {o : Outcome} : find r = some s → r ≠ last → Reads find last (r + 1) o →
      Reads find last r ⟨s :: o.sectors, o.record, o.complete⟩

variable {find : UInt8 → Option Sector} {last first : UInt8} {t : Transfer}

theorem Reads.unique {o o' : Outcome} (h : Reads find last first o) (h' : Reads find last first o') : o' = o := by
  induction h generalizing o' with
  | missing hnone =>
    cases h' with
    | missing => rfl
    | last hs | next hs => exact absurd hs (hnone ▸ nofun)
  | last hs =>
    cases h' with
    | missing hnone => exact absurd hs (hnone ▸ nofun)
    | last hs' => rw [Option.some.inj (hs.symm.trans hs')]
    | next _ hne => exact absurd rfl hne
  | next hs hne _ ih =>
    cases h' with
    | missing hnone => exact absurd hs (hnone ▸ nofun)
    | last => exact absurd rfl hne
    | next hs' _ hrest => rw [Option.some.inj (hs.symm.trans hs'), ih hrest]

/-- The induction is on the row of numbers that are left, which has an end because bytes go round. -/
theorem exists_reads (find : UInt8 → Option Sector) (first last : UInt8) : ∃ o, Reads find last first o := by
  suffices h : ∀ records first, recordsFrom first last = records → ∃ o, Reads find last first o from
    h _ first rfl
  intro records
  induction records with
  | nil =>
    intro first h
    rw [recordsFrom_cons] at h
    cases h
  | cons r records ih =>
    intro first h
    cases hs : find first with
    | none => exact ⟨_, .missing hs⟩
    | some s =>
      by_cases hlast : first = last
      · rw [hlast] at hs ⊢
        exact ⟨_, .last hs⟩
      · rw [recordsFrom_of_ne hlast] at h
        obtain ⟨o, ho⟩ := ih (first + 1) (List.cons.inj h).2
        exact ⟨_, .next hs hlast ho⟩

/-! ## What is gathered -/

/-- What a sector gives: its data, cut or filled up with zeros to the length that is asked for. -/
def Transfer.payload (t : Transfer) (s : Sector) : List UInt8 :=
  (s.data.data.toList.take t.sectorLength).rightpad t.sectorLength 0

/-- A data error, if one of the sectors has it in its status. -/
def errorIn (status : Sector → UInt8) (sectors : List Sector) : UInt8 :=
  if sectors.any (status · &&& dataError != 0) then dataError else 0

/-- A control mark, if one of the sectors is not marked as the transfer expects. -/
def Transfer.markIn (t : Transfer) (sectors : List Sector) : UInt8 :=
  if sectors.any (·.deleted != t.deleted) then controlMark else 0

/-- Why the read stopped. -/
def Outcome.stop (o : Outcome) : UInt8 := if o.complete then endOfCylinder else noData

theorem ite_or (a b : Bool) (v : UInt8) :
    (if a || b then v else 0) = (if a then v else 0) ||| (if b then v else 0) := by
  cases a <;> cases b <;> simp

theorem and_dataError (v : UInt8) : v &&& dataError = if v &&& dataError != 0 then dataError else 0 := by
  rcases dataError_cases v with h | h <;> rw [h] <;> rfl

theorem data_foldl_add (sectors : List Sector) (g : Gathered) :
    (sectors.foldl (·.add t ·) g).data = g.data ++ byteList (sectors.flatMap t.payload) := by
  induction sectors generalizing g with
  | nil => exact ByteArray.append_empty.symm
  | cons s sectors ih =>
    rw [List.foldl_cons, ih, List.flatMap_cons, byteList_append, ← ByteArray.append_assoc, Transfer.payload,
      ← sliceOrZero_eq_byteList]
    rfl

theorem errorIn_cons (status : Sector → UInt8) (s : Sector) (sectors : List Sector) :
    errorIn status (s :: sectors) = status s &&& dataError ||| errorIn status sectors := by
  rw [errorIn, List.any_cons, ite_or, ← and_dataError]
  rfl

theorem markIn_cons (t : Transfer) (s : Sector) (sectors : List Sector) :
    t.markIn (s :: sectors) = (if s.deleted != t.deleted then controlMark else 0) ||| t.markIn sectors := by
  rw [Transfer.markIn, List.any_cons, ite_or]
  rfl

theorem status1_foldl_add (sectors : List Sector) (g : Gathered) :
    (sectors.foldl (·.add t ·) g).status1 = g.status1 ||| errorIn (·.status1) sectors := by
  induction sectors generalizing g with
  | nil => exact UInt8.or_zero.symm
  | cons s sectors ih =>
    rw [List.foldl_cons, ih, errorIn_cons, ← UInt8.or_assoc]
    rfl

theorem status2_foldl_add (sectors : List Sector) (g : Gathered) :
    (sectors.foldl (·.add t ·) g).status2 =
      g.status2 ||| (errorIn (·.status2) sectors ||| t.markIn sectors) := by
  induction sectors generalizing g with
  | nil => simp [errorIn, Transfer.markIn]
  | cons s sectors ih =>
    have hadd : (g.add t s).status2 =
        g.status2 ||| s.status2 &&& dataError ||| (if s.deleted != t.deleted then controlMark else 0) := rfl
    rw [List.foldl_cons, ih, hadd, errorIn_cons, markIn_cons]
    ac_rfl

/-- The sectors are gathered one after the other, and then the reason for stopping is added. -/
theorem gather_reads {o : Outcome} (h : Reads find last first o) (g : Gathered) (record : UInt8) :
    gather t find g record (recordsFrom first last) =
      ({ o.sectors.foldl (·.add t ·) g with
          status1 := (o.sectors.foldl (·.add t ·) g).status1 ||| o.stop }, o.record) := by
  induction h generalizing g record with
  | missing hnone =>
    rw [recordsFrom_cons, gather, hnone]
    rfl
  | last hs =>
    rw [recordsFrom_self, gather, hs]
    rfl
  | next hs hne _ ih =>
    rw [recordsFrom_of_ne hne, gather, hs]
    exact ih _ _

/-! ## The whole read -/

/-- The data that a read puts up to be read out. -/
def Transfer.data (t : Transfer) (o : Outcome) : List UInt8 := o.sectors.flatMap t.payload

/-- The result that follows. Every read ends abnormally, as nothing but the last sector or a missing
one can end it. -/
def Transfer.report (t : Transfer) (o : Outcome) : List UInt8 :=
  [0x40 + 4 * t.select.head + (t.select.bits &&& 3), o.stop ||| errorIn (·.status1) o.sectors,
    errorIn (·.status2) o.sectors ||| t.markIn o.sectors, t.cylinder, t.head, o.record, t.sizeCode]

theorem status_or_abnormal (s : Select) : s.status ||| abnormal = 0x40 + 4 * s.head + (s.bits &&& 3) := by
  obtain ⟨bits⟩ := s
  revert bits
  exact forall_byte (by decide +kernel)

theorem readSectors_reads {f : Fdc} (hready : f.isReady t.select.unit = true) {o : Outcome}
    (h : Reads (f.sector? t) t.lastRecord t.record o) :
    f.readSectors t = f.startRead (byteList (t.data o)) (t.report o) := by
  obtain ⟨d, hd, hsector⟩ := exists_disk_of_isReady hready
  rw [hsector] at h
  simp only [readSectors, hd, hready, gather_reads h, data_foldl_add, status1_foldl_add, status2_foldl_add,
    ByteArray.empty_append, UInt8.zero_or, Transfer.result]
  rw [status_or_abnormal, UInt8.or_comm _ o.stop]
  rfl

theorem startRead_eq (f : Fdc) (data : List UInt8) (left : List UInt8) :
    f.startRead (byteList data) left =
      { f with phase := if data = [] then .result left else .reading (byteList data) 0 left } := by
  cases data with
  | nil => rfl
  | cons v data =>
    have hsize : (byteList (v :: data)).isEmpty = false := beq_false_of_ne (by simp)
    rw [startRead, hsize]
    rfl

/-- **A read of sectors from a drive that is ready comes to an end, and to one only.** The data of the
sectors that it found is put up to be read out and the result after it, or the result at once if there
is no data; nothing but the phase of the controller changes. With the last byte of the result the
controller is as it was before. -/
theorem performAll_reader {f : Fdc} (hidle : f.phase = .idle) {t : Transfer}
    (hready : f.isReady t.select.unit = true) {first : UInt8} (hfirst : Command.ofByte first = t.reader)
    (gap : UInt8) :
    ∃ o, Reads (f.sector? t) t.lastRecord t.record o ∧
      (∀ o', Reads (f.sector? t) t.lastRecord t.record o' → o' = o) ∧
      let after := f.performAll ((t.command first gap).map .write)
      after = { f with
          phase := if t.data o = [] then .result (t.report o) else .reading (byteList (t.data o)) 0 (t.report o) } ∧
        after.reads ((t.data o).length + 7) = (t.data o ++ t.report o, f) := by
  obtain ⟨o, ho⟩ := exists_reads (f.sector? t) t.record t.lastRecord
  refine ⟨o, ho, fun o' => ho.unique, ?_⟩
  intro after
  have hnine : (Command.ofByte first).length = 9 := by
    rw [hfirst, Transfer.reader]
    cases t.deleted <;> rfl
  obtain ⟨p, hp⟩ := performAll_transfer hidle t hnine gap
  have hafter : after = { f with phase := p }.startRead (byteList (t.data o)) (t.report o) := by
    show f.performAll _ = _
    rw [hp, ofBytes_reader hfirst]
    exact readSectors_reads (f := { f with phase := p }) hready ho
  have hne : t.report o ≠ [] := List.cons_ne_nil _ _
  have hcoherent : after.phase.Coherent := hafter ▸ coherent_startRead _ hne
  have hpending : after.phase.pending = t.data o ++ t.report o := by
    rw [hafter, pending_startRead]
    rfl
  have hread := reads_pending _ hcoherent hpending fun hnil => hne (List.append_eq_nil_iff.mp hnil).2
  rw [hafter, startRead_eq] at hread ⊢
  refine ⟨rfl, ?_⟩
  rw [List.length_append] at hread
  rw [← hidle] at hread
  exact hread

/-- Three bytes each of the sectors from 255 to 1, of which the last is missing. -/
def pastZero : Transfer := ⟨⟨0⟩, 0, 0, 255, 0, 1, 3, false⟩

/-- The data of the second sector is filled up; the first is marked as deleted and the second is
recorded with a data error. -/
theorem performAll_reader_missing :
    let after := twoShortSectors.performAll ((pastZero.command 0x46 0x2A).map .write)
    (twoShortSectors.phase = .idle ∧ twoShortSectors.isReady pastZero.select.unit = true ∧
      Command.ofByte 0x46 = pastZero.reader) ∧
      after.reads 13 = ([1, 2, 3, 4, 5, 0] ++ [0x40, 0x24, 0x60, 0, 0, 1, 0], twoShortSectors) := by
  intro after
  have hready : twoShortSectors.isReady pastZero.select.unit = true := rfl
  have hreads : Reads (twoShortSectors.sector? pastZero) 1 255
      ⟨[⟨⟨0, 0, 255, 0⟩, 0x20, 0x40, byteList [1, 2, 3]⟩, ⟨⟨0, 0, 0, 0⟩, 0, 0x20, byteList [4, 5]⟩], 1, false⟩ :=
    .next (o := ⟨[⟨⟨0, 0, 0, 0⟩, 0, 0x20, byteList [4, 5]⟩], 1, false⟩) rfl (by decide)
      (.next (o := ⟨[], 1, false⟩) rfl (by decide) (.missing rfl))
  obtain ⟨o, -, hunique, -, hread⟩ := performAll_reader (f := twoShortSectors) rfl hready
    (show Command.ofByte 0x46 = pastZero.reader from rfl) 0x2A
  obtain rfl := hunique _ hreads
  exact ⟨⟨rfl, hready, rfl⟩, hread⟩

end AmstradCpc.Fdc
