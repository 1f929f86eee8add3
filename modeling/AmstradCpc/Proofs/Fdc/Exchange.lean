/-
Rows of accesses to the data register. What is put up to be read comes out byte by
byte, and with the last byte the controller is idle again. The data of a sector goes
in byte by byte, and with the last byte the sector is written; then the transfer goes
on with the sector after it, unless that was the last one or the disk does not have
the next. `commitSector_cases` says all that can become of a transfer at that point.
-/
import AmstradCpc.Proofs.Fdc.Disks
import AmstradCpc.Proofs.Disk.Sectors

namespace AmstradCpc.Fdc

open Disk (Image Sector)

/-! ## Going through a command -/

/-- The bytes of a command, written one after the other, have it carried out. -/
theorem performAll_command : ∀ (bytes : List UInt8) {f : Fdc} {received : List UInt8},
    f.phase.Coherent → f.phase.collected = some received → bytes ≠ [] →
    (received ++ bytes).length = (Command.ofByte ((received ++ bytes).headD 0)).length →
    ∃ p, f.performAll (bytes.map .write) = { f with phase := p }.run (.ofBytes (received ++ bytes))
  | v :: bytes, f, received, h, hc, _, hlen => by
    have hhead : (received ++ v :: bytes).headD 0 = (received ++ [v]).headD v := by
      cases received <;> rfl
    have hsplit : received ++ v :: bytes = received ++ [v] ++ bytes := by simp
    rw [hhead] at hlen
    show ∃ p, (f.write v).performAll (bytes.map .write) = _
    rcases write_collected h hc v with ⟨hlt, hw⟩ | ⟨heq, hw, -⟩
    · have hne : bytes ≠ [] := by
        rintro rfl
        omega
      have hco : (f.write v).phase.Coherent := coherent_write h v
      rw [hw] at hco ⊢
      obtain ⟨p, hp⟩ := performAll_command bytes hco rfl hne (by rw [← hsplit, hhead]; exact hlen)
      exact ⟨p, by rw [hp, hsplit]⟩
    · have hnil : bytes = [] := by
        simp only [List.length_append, List.length_cons, List.length_nil] at heq hlen
        exact List.eq_nil_of_length_eq_zero (by omega)
      subst hnil
      exact ⟨f.phase, hw⟩

theorem performAll_of_idle {f : Fdc} (hidle : f.phase = .idle) {bytes : List UInt8} (hne : bytes ≠ [])
    (hlen : bytes.length = (Command.ofByte (bytes.headD 0)).length) :
    ∃ p, f.performAll (bytes.map .write) = { f with phase := p }.run (.ofBytes bytes) := by
  have hco : f.phase.Coherent := by
    rw [hidle]
    exact trivial
  have hc : f.phase.collected = some [] := by rw [hidle, Phase.collected]
  exact performAll_command bytes hco hc hne hlen

/-! ## Reading out -/

/-- The bytes that are to be read before the controller is idle again. -/
def Phase.pending : Phase → List UInt8
  | .reading data next outcome => data.data.toList.drop next ++ outcome
  | .result left => left
  | .idle | .command _ | .writing .. | .formatting .. => []

/-- The bytes that so many reads give, and the controller after them. -/
def reads (f : Fdc) : Nat → List UInt8 × Fdc
  | 0 => ([], f)
  | n + 1 => ((f.read.1 :: (f.read.2.reads n).1), (f.read.2.reads n).2)

/-- A read takes the first of the bytes that are to be read, and changes nothing but
the phase. -/
theorem read_pending {f : Fdc} {v : UInt8} {rest : List UInt8} (h : f.phase.Coherent)
    (hp : f.phase.pending = v :: rest) : ∃ p : Phase, f.read = (v, { f with phase := p }) ∧
      p.Coherent ∧ p.pending = rest ∧ (rest = [] → p = .idle) := by
  cases hph : f.phase with
  | reading data next outcome =>
    simp only [hph, Phase.Coherent] at h
    obtain ⟨hnext, houtcome⟩ := h
    have hlen : data.data.toList.length = data.size := Array.length_toList
    have hlt : next < data.data.toList.length := by omega
    simp only [hph, Phase.pending, List.drop_eq_getElem_cons hlt, List.cons_append,
      List.cons.injEq] at hp
    obtain ⟨hv, rfl⟩ := hp
    have hread : f.read.1 = v := by
      rw [read, hph]
      exact (dif_pos hnext).trans hv
    by_cases hlast : data.size ≤ next + 1
    · have hdrop : data.data.toList.drop (next + 1) = [] := List.drop_eq_nil_of_le (by omega)
      refine ⟨.result outcome, Prod.ext hread ?_, houtcome, ?_, fun hnil => ?_⟩
      · rw [read_of_reading hph, if_pos hlast]
        rfl
      · rw [hdrop]
        rfl
      · rw [hdrop, List.nil_append] at hnil
        exact absurd hnil houtcome
    · refine ⟨.reading data (next + 1) outcome, Prod.ext hread ?_, ⟨by omega, houtcome⟩, rfl, fun hnil => ?_⟩
      · rw [read_of_reading hph, if_neg hlast]
      · exact absurd (List.append_eq_nil_iff.mp hnil).2 houtcome
  | result left =>
    simp only [hph, Phase.pending] at hp
    subst hp
    rcases rest with - | ⟨w, rest⟩
    · exact ⟨.idle, by simp only [read, hph], trivial, rfl, fun _ => rfl⟩
    · have hne : w :: rest ≠ [] := List.cons_ne_nil w rest
      exact ⟨.result (w :: rest), by simp only [read, hph, enterResult], hne, rfl, fun hnil => absurd hnil hne⟩
  | idle | command | writing | formatting => simp [hph, Phase.pending] at hp

/-- As many reads as there are bytes to be read give these, and leave the controller
as it was, but idle. -/
theorem reads_pending : ∀ (bytes : List UInt8) {f : Fdc}, f.phase.Coherent → f.phase.pending = bytes →
    bytes ≠ [] → f.reads bytes.length = (bytes, { f with phase := .idle })
  | v :: rest, f, h, hp, _ => by
    obtain ⟨p, hread, hco, hpending, hidle⟩ := read_pending h hp
    rw [List.length_cons, reads, hread]
    by_cases hnil : rest = []
    · subst hnil
      rw [hidle rfl]
      rfl
    · rw [reads_pending rest (f := { f with phase := p }) hco hpending hnil]

/-- A result is read out, and with that the controller is idle. -/
theorem reads_result {f : Fdc} {left : List UInt8} (h : left ≠ []) :
    (f.enterResult left).reads left.length = (left, { f with phase := .idle }) :=
  reads_pending left (coherent_enterResult f h) rfl h

/-! ## The sectors of a transfer -/

/-- Bytes that make a sector complete. A sector of no bytes is complete with the
first that comes. -/
def Transfer.sectorBytes (t : Transfer) : Nat := max 1 t.sectorLength

theorem Transfer.sectorLength_le (t : Transfer) : t.sectorLength ≤ 8192 := by
  unfold Transfer.sectorLength
  split
  · have := t.shortLength.toNat_lt
    omega
  · exact Disk.sectorLength_le t.sizeCode

theorem Transfer.sectorBytes_le (t : Transfer) : t.sectorBytes ≤ 8192 :=
  Nat.max_le.mpr ⟨by decide, t.sectorLength_le⟩

/-- Sectors from the one that comes next to the last, numbered modulo 256. -/
def Transfer.sectorsLeft (t : Transfer) : Nat := (t.lastRecord - t.record).toNat + 1

theorem Transfer.sectorsLeft_le (t : Transfer) : t.sectorsLeft ≤ 256 := (t.lastRecord - t.record).toNat_lt

/-- After any sector but the last there is one less. -/
theorem Transfer.sectorsLeft_next {t : Transfer} (h : t.record ≠ t.lastRecord) :
    { t with record := t.record + 1 }.sectorsLeft + 1 = t.sectorsLeft := by
  obtain ⟨r, hr⟩ : ∃ r, r = t.record.toNat := ⟨_, rfl⟩
  obtain ⟨l, hl⟩ : ∃ l, l = t.lastRecord.toNat := ⟨_, rfl⟩
  have hne : r ≠ l := fun he => h (UInt8.toNat_inj.mp (by omega))
  have := t.record.toNat_lt
  have := t.lastRecord.toNat_lt
  simp only [Transfer.sectorsLeft, UInt8.toNat_sub, UInt8.toNat_add, UInt8.toNat_one, ← hr, ← hl]
  omega

/-- The sector that a transfer finds under a record number: the first that answers on
the first track under the head. -/
def sector? (f : Fdc) (t : Transfer) (record : UInt8) : Option Sector :=
  (f.disk t.select.unit).bind (·.sector (f.cylinder t.select.unit) t.select.head t.cylinder record)

/-- How a transfer to the disk ends: at its last sector, or at one that the disk does
not have. -/
def Transfer.Ended (t : Transfer) (g : Fdc) : Prop :=
  g.phase = .result ({ t with record := t.lastRecord }.result abnormal endOfCylinder 0) ∨
    ∃ record, g.sector? t record = none ∧
      g.phase = .result ({ t with record }.result abnormal noData 0)

/-- The phase in which a transfer to the disk comes to a sector: it waits for the data, or the disk does
not have the sector and the transfer is over. -/
def beginPhase (f : Fdc) (t : Transfer) : Phase :=
  if (f.sector? t t.record).isSome then .writing t .empty else .result (t.result abnormal noData 0)

theorem beginPhase_found {f : Fdc} {t : Transfer} {s : Sector} (h : f.sector? t t.record = some s) :
    f.beginPhase t = .writing t .empty := by
  rw [beginPhase, h]
  rfl

theorem beginPhase_missing {f : Fdc} {t : Transfer} (h : f.sector? t t.record = none) :
    f.beginPhase t = .result (t.result abnormal noData 0) := by
  rw [beginPhase, h]
  rfl

theorem beginWrite_eq (f : Fdc) (t : Transfer) : f.beginWrite t = { f with phase := f.beginPhase t } := by
  simp only [beginWrite]
  split
  · next s hs => rw [beginPhase_found hs]
  · next hnone => rw [beginPhase_missing hnone, enterResult]

/-- A transfer begins a sector that the disk has, and ends at one that it does not have. -/
theorem beginWrite_cases (f : Fdc) (t : Transfer) :
    t.Ended (f.beginWrite t) ∨ f.beginWrite t = { f with phase := .writing t .empty } := by
  rw [beginWrite_eq]
  cases hs : f.sector? t t.record with
  | some s => exact .inr (by rw [beginPhase_found hs])
  | none => exact .inl (.inr ⟨t.record, hs, beginPhase_missing hs⟩)

/-- With the data of a sector complete, the transfer ends or goes on with the next sector. -/
theorem commitSector_cases (f : Fdc) (t : Transfer) (data : ByteArray) :
    t.Ended (f.commitSector t data) ∨ t.record ≠ t.lastRecord ∧
      (f.commitSector t data).phase = .writing { t with record := t.record + 1 } .empty := by
  simp only [commitSector]
  split
  · next hnone =>
    refine .inl (.inr ⟨t.record, Option.bind_eq_none_iff.mpr fun d hd => ?_, rfl⟩)
    exact Image.sector_of_writeSector_eq_none (Option.bind_eq_none_iff.mp hnone d hd)
  · next disk _ =>
    split
    · next hlast => exact .inl (.inl (by rw [← hlast]; rfl))
    · next hne =>
      rcases beginWrite_cases (f.modifyDisk t.select.unit fun _ => disk)
        { t with record := t.record + 1 } with hended | hnext
      · exact .inl hended
      · exact .inr ⟨hne, by rw [hnext]⟩

/-- As long as a sector is short of bytes, what has come is kept and nothing else changes. Any way
to go on from byte to byte will do that writes them as long as the sector is not complete. -/
theorem foldl_writing_short {step : Fdc → UInt8 → Fdc} {t : Transfer}
    (hstep : ∀ g v received, g.phase = .writing t received → step g v = g.write v) :
    ∀ (bytes : List UInt8) {f : Fdc} {received : ByteArray}, f.phase = .writing t received →
      received.size + bytes.length < t.sectorBytes →
      bytes.foldl step f = { f with phase := .writing t (received ++ byteList bytes) }
  | [], f, received, hp, _ => by
    rw [show byteList [] = .empty from rfl, ByteArray.append_empty, ← hp]
    rfl
  | v :: bytes, f, received, hp, hlen => by
    have hpush : received ++ byteList (v :: bytes) = received.push v ++ byteList bytes := by
      simp [byteList, ByteArray.ext_iff]
    have hsize : (received.push v).size = received.size + 1 := by simp
    have hwrite : f.write v = { f with phase := .writing t (received.push v) } := by
      simp only [List.length_cons, Transfer.sectorBytes] at hlen
      simp only [write, hp]
      exact if_neg (by omega)
    rw [List.foldl_cons, hstep f v received hp, hpush, hwrite]
    rw [List.length_cons] at hlen
    exact foldl_writing_short hstep bytes rfl (by omega)

/-- Bytes that make a sector complete have it written. -/
theorem foldl_writing {step : Fdc → UInt8 → Fdc} {t : Transfer}
    (hstep : ∀ g v received, g.phase = .writing t received → step g v = g.write v)
    (bytes : List UInt8) {f : Fdc} {received : ByteArray} (hp : f.phase = .writing t received)
    (hne : bytes ≠ []) (hlen : received.size + bytes.length = t.sectorBytes) :
    bytes.foldl step f = { f with phase := .idle }.commitSector t (received ++ byteList bytes) := by
  obtain ⟨init, v, rfl⟩ : ∃ init v, bytes = init ++ [v] := ⟨_, _, (List.dropLast_concat_getLast hne).symm⟩
  simp only [List.length_append, List.length_singleton] at hlen
  have hpush : received ++ byteList (init ++ [v]) = (received ++ byteList init).push v := by
    simp [byteList, ByteArray.ext_iff]
  have hsize : ((received ++ byteList init).push v).size = received.size + init.length + 1 := by simp
  let g : Fdc := { f with phase := .writing t (received ++ byteList init) }
  rw [List.foldl_append, foldl_writing_short hstep init hp (by omega), hpush, List.foldl_cons, List.foldl_nil,
    hstep g v _ rfl]
  simp only [Transfer.sectorBytes] at hlen
  simp only [g, write]
  exact if_pos (by omega)

end AmstradCpc.Fdc
