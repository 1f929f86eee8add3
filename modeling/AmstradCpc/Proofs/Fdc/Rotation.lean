/-
Reading sector IDs. Which sector passes under the head next is counted over all tracks and all drives, by one
counter that goes on with every ID that is read. On a track of `n` sectors only its remainder by `n` counts, so
as long as it does not go round itself, `n` reads one after the other see the whole track from wherever they
begin: the row of its sectors, rotated (`readId_rotates`). A track without sectors leaves the counter alone.
-/
import AmstradCpc.Proofs.Fdc.Exchange
import AmstradCpc.Proofs.Fdc.Formatting
import AmstradCpc.Proofs.Fdc.ReadData
import Mathlib.Data.List.Rotate

namespace AmstradCpc.Fdc

open Disk (Image Sector SectorId Track)

variable {f g h : Fdc} {unit : Nat} {head : UInt8} {command : List UInt8} {reports : List (List UInt8)}

/-! ## What a program does and sees -/

/-- The sectors that pass under a head of a drive, in their order; none if the disk has no such track. -/
def underHead (f : Fdc) (unit : Nat) (head : UInt8) : List Sector :=
  ((f.disk unit).bind fun d => d.track (f.cylinder unit) head).elim [] (·.sectors)

/-- The bytes of a command to read an ID under a head of a drive. -/
def AsksForId (unit : Nat) (head : UInt8) (command : List UInt8) : Prop :=
  ∃ first, ∃ s : Select, command = [first, s.bits] ∧ Command.ofByte first = .readId ∧ s.unit = unit ∧ s.head = head

/-- Writes a command to read an ID, and reads the seven bytes of the result. -/
def askId (f : Fdc) (command : List UInt8) : List UInt8 × Fdc := (f.performAll (command.map .write)).reads 7

/-- The result that reports a sector: nothing is wrong, and the sector's ID. -/
def idReport (unit : Nat) (head : UInt8) (s : Sector) : List UInt8 :=
  [4 * head + unit.toUInt8, 0, 0] ++ SectorId.toList s.id

/-- The result where there is no sector: an abnormal end, with the address mark missing. -/
def noIdReport (unit : Nat) (head : UInt8) : List UInt8 := [0x40 + 4 * head + unit.toUInt8, 1, 1, 0, 0, 0, 0]

/-- The controller can read an ID of a drive, and since a moment before no ID has been read, the disk in that
drive has not changed and its head has not moved. -/
structure Undisturbed (unit : Nat) (f g : Fdc) : Prop where
  idle : g.phase = .idle
  ready : g.isReady unit = true
  disk : g.disk unit = f.disk unit
  cylinder : g.cylinder unit = f.cylinder unit
  nextId : g.nextId = f.nextId

/-- IDs are read under one head of a drive, one after the other, and these are the results. Before, between
and after them anything may happen that does not disturb them. -/
inductive ReadsIds (unit : Nat) (head : UInt8) : Fdc → List (List UInt8) → Fdc → Prop
  | done {f g : Fdc} : Undisturbed unit f g → ReadsIds unit head f [] g
  | turn {f g h : Fdc} {command : List UInt8} {reports : List (List UInt8)} : Undisturbed unit f g →
      AsksForId unit head command → ReadsIds unit head (g.askId command).2 reports h →
      ReadsIds unit head f ((g.askId command).1 :: reports) h

theorem Undisturbed.underHead (h : Undisturbed unit f g) : g.underHead unit head = f.underHead unit head := by
  rw [Fdc.underHead, Fdc.underHead, h.disk, h.cylinder]

/-! ## One ID -/

/-- The sector that the counter stands for is reported, and the counter goes on. -/
theorem readId_found {select : Select} (hready : f.isReady select.unit = true) {row : List Sector}
    (hrow : f.underHead select.unit select.head = row) {s : Sector}
    (hs : row[f.nextId.toNat % row.length]? = some s) :
    f.readId select =
      { f with nextId := f.nextId + 1 }.enterResult (idReport select.unit select.head s) := by
  simp only [underHead] at hrow
  simp only [readId, hready, if_true, hrow, hs, idReport, status_eq]

/-- Without sectors there is no ID, and the counter stays. -/
theorem readId_missing {select : Select} (hready : f.isReady select.unit = true)
    (hrow : f.underHead select.unit select.head = []) :
    f.readId select = f.enterResult (noIdReport select.unit select.head) := by
  simp only [underHead] at hrow
  have hstatus : select.status ||| abnormal = 0x40 + 4 * select.head + select.unit.toUInt8 := by
    rw [status_or_abnormal, Select.unit, Nat.toUInt8_eq, UInt8.ofNat_toNat]
  simp only [readId, hready, if_true, hrow, List.getElem?_nil, hstatus, noIdReport, missingAddress]

/-- The bytes of the command have it carried out. -/
theorem performAll_askId (hidle : f.phase = .idle) (hask : AsksForId unit head command) :
    ∃ p, ∃ select : Select, select.unit = unit ∧ select.head = head ∧
      f.performAll (command.map .write) = ({ f with phase := p } : Fdc).readId select := by
  obtain ⟨first, select, rfl, hfirst, hunit, hhead⟩ := hask
  have hlen : [first, select.bits].length = (Command.ofByte ([first, select.bits].headD 0)).length := by
    simp [hfirst, Command.length]
  obtain ⟨p, hp⟩ := performAll_of_idle hidle (List.cons_ne_nil first _) hlen
  have hrequest : Request.ofBytes [first, select.bits] = .readId select := by
    simp only [Request.ofBytes, hfirst]
  exact ⟨p, select, hunit, hhead, by rw [hp, hrequest, run]⟩

theorem reads_enterResult {bytes : List UInt8} {n : Nat} (hlen : bytes.length = n) (hne : bytes ≠ []) :
    (f.enterResult bytes).reads n = (bytes, { f with phase := .idle }) := hlen ▸ reads_result hne

theorem askId_found (hidle : f.phase = .idle) (hready : f.isReady unit = true) (hask : AsksForId unit head command)
    {row : List Sector} (hrow : f.underHead unit head = row) {s : Sector}
    (hs : row[f.nextId.toNat % row.length]? = some s) :
    f.askId command = (idReport unit head s, { f with nextId := f.nextId + 1 }) := by
  obtain ⟨p, select, rfl, rfl, hp⟩ := performAll_askId hidle hask
  have hread := readId_found (f := { f with phase := p }) hready hrow hs
  have hseven : (idReport select.unit select.head s).length = 7 := rfl
  rw [askId, hp, hread, reads_enterResult hseven (List.cons_ne_nil _ _), ← hidle]

theorem askId_missing (hidle : f.phase = .idle) (hready : f.isReady unit = true)
    (hask : AsksForId unit head command) (hrow : f.underHead unit head = []) :
    f.askId command = (noIdReport unit head, f) := by
  obtain ⟨p, select, rfl, rfl, hp⟩ := performAll_askId hidle hask
  have hread := readId_missing (f := { f with phase := p }) hready hrow
  have hseven : (noIdReport select.unit select.head).length = 7 := rfl
  rw [askId, hp, hread, reads_enterResult hseven (List.cons_ne_nil _ _), ← hidle]

/-! ## A whole turn -/

/-- The result at a count of the sectors: the row comes round again and again. -/
def reportAt (unit : Nat) (head : UInt8) (row : List Sector) (count : Nat) : List UInt8 :=
  row[count % row.length]?.elim (noIdReport unit head) (idReport unit head)

theorem askId_undisturbed (hfg : Undisturbed unit f g) (hask : AsksForId unit head command) {row : List Sector}
    (hrow : f.underHead unit head = row) (hne : row ≠ []) :
    g.askId command = (reportAt unit head row f.nextId.toNat, { g with nextId := f.nextId + 1 }) := by
  have hlt : f.nextId.toNat % row.length < row.length := Nat.mod_lt _ (List.length_pos_iff.mpr hne)
  obtain ⟨s, hs⟩ : ∃ s, row[f.nextId.toNat % row.length]? = some s := ⟨_, List.getElem?_eq_getElem hlt⟩
  rw [reportAt, hs, Option.elim_some]
  rw [← hfg.nextId] at hs ⊢
  exact askId_found hfg.idle hfg.ready hask (hfg.underHead.trans hrow) hs

/-- A counter that is not at its limit does not go round. -/
theorem toNat_add_one {k : UInt64} (h : k.toNat + 1 < 2 ^ 64) : (k + 1).toNat = k.toNat + 1 := by
  rw [UInt64.toNat_add]
  exact Nat.mod_eq_of_lt h

/-- The induction is on the row of reads: after each of them the counter stands for the next sector. -/
theorem ReadsIds.reports_eq {row : List Sector} (hne : row ≠ []) (hrun : ReadsIds unit head f reports h)
    (hrow : f.underHead unit head = row) (hlimit : f.nextId.toNat + reports.length ≤ 2 ^ 64) :
    reports = (List.range reports.length).map fun i => reportAt unit head row (f.nextId.toNat + i) := by
  induction hrun with
  | done => rfl
  | @turn f g h command reports hfg hask hrest ih =>
    rw [askId_undisturbed hfg hask hrow hne] at ih ⊢
    have hrow' : ({ g with nextId := f.nextId + 1 } : Fdc).underHead unit head = row :=
      hfg.underHead.trans hrow
    rw [List.length_cons] at hlimit ⊢
    rw [List.range_succ_eq_map, List.map_cons, List.map_map, Nat.add_zero]
    congr 1
    cases reports with
    | nil => rfl
    | cons second reports =>
      rw [List.length_cons] at hlimit
      have hnext : (f.nextId + 1).toNat = f.nextId.toNat + 1 := toNat_add_one (by omega)
      refine (ih hrow' ?_).trans (List.map_congr_left fun i _ => ?_)
      · rw [List.length_cons]
        show (f.nextId + 1).toNat + _ ≤ _
        omega
      · show reportAt unit head row ((f.nextId + 1).toNat + i) = _
        rw [hnext, Function.comp_apply, Nat.succ_eq_add_one, Nat.add_assoc, Nat.add_comm 1]

/-- At the end the counter has gone on by the number of IDs, and nothing else has been disturbed. -/
theorem ReadsIds.undisturbed (hrun : ReadsIds unit head f reports h) (hne : f.underHead unit head ≠ []) :
    Undisturbed unit { f with nextId := f.nextId + reports.length.toUInt64 } h := by
  induction hrun with
  | @done f g hfg => exact { hfg with nextId := hfg.nextId.trans (UInt64.add_zero f.nextId).symm }
  | @turn f g h command reports hfg hask hrest ih =>
    rw [askId_undisturbed hfg hask rfl hne] at ih
    have hne' : ({ g with nextId := f.nextId + 1 } : Fdc).underHead unit head ≠ [] := hfg.underHead.trans_ne hne
    have hcount : f.nextId + 1 + reports.length.toUInt64 = f.nextId + (reports.length + 1).toUInt64 := by
      rw [UInt64.add_assoc, UInt64.add_comm 1]
      congr 1
      exact (UInt64.ofNat_add ..).symm
    have hgh := ih hne'
    exact ⟨hgh.idle, hgh.ready, hgh.disk.trans hfg.disk, hgh.cylinder.trans hfg.cylinder,
      hgh.nextId.trans hcount⟩

/-- So many counts from anywhere on go once round the row. -/
theorem map_reportAt (unit : Nat) (head : UInt8) (row : List Sector) (k : Nat) :
    (List.range row.length).map (fun i => reportAt unit head row (k + i)) =
      (row.rotate k).map (idReport unit head) := by
  refine List.ext_getElem (by simp) fun i hi _ => ?_
  rw [List.length_map, List.length_range] at hi
  have hlt : (k + i) % row.length < row.length := Nat.mod_lt _ (Nat.zero_lt_of_lt hi)
  rw [List.getElem_map, List.getElem_range, List.getElem_map, List.getElem_rotate, reportAt,
    List.getElem?_eq_getElem hlt, Option.elim_some]
  simp only [Nat.add_comm]

/-- **Reading IDs sees every sector of a track.** An ID that is read moves the counter on and nothing else. As
many IDs as the track under the head has sectors, read one after the other from any count on that so many can be
added to, are the IDs of these sectors, each once and in their order on the track, from the place on where the
counter stood, and all the results are normal ones. If there is no track, or no sector on it, the result says
so, and the controller is exactly as it was before. -/
theorem readId_rotates (unit : Nat) (head : UInt8) :
    (∀ {f : Fdc} {command : List UInt8}, f.phase = .idle → f.isReady unit = true →
      AsksForId unit head command → f.underHead unit head ≠ [] →
      (f.askId command).2 = { f with nextId := f.nextId + 1 }) ∧
    (∀ {f h : Fdc} {reports : List (List UInt8)}, ReadsIds unit head f reports h →
      reports.length = (f.underHead unit head).length → 1 ≤ (f.underHead unit head).length →
      f.nextId.toNat + (f.underHead unit head).length ≤ 2 ^ 64 →
      reports = ((f.underHead unit head).rotate f.nextId.toNat).map (idReport unit head) ∧
        Undisturbed unit { f with nextId := f.nextId + reports.length.toUInt64 } h) ∧
    ∀ {f : Fdc} {command : List UInt8}, f.phase = .idle → f.isReady unit = true →
      AsksForId unit head command → f.underHead unit head = [] →
      f.askId command = (noIdReport unit head, f) := by
  refine ⟨fun hidle hready hask hne => ?_, fun {f h reports} hrun hlen hpos hlimit => ?_, askId_missing⟩
  · rw [askId_undisturbed ⟨hidle, hready, rfl, rfl, rfl⟩ hask rfl hne]
  · have hne : f.underHead unit head ≠ [] := List.length_pos_iff.mp hpos
    refine ⟨?_, hrun.undisturbed hne⟩
    rw [hrun.reports_eq hne rfl (hlen ▸ hlimit), hlen]
    exact map_reportAt unit head (f.underHead unit head) f.nextId.toNat

/-- A ready drive whose disk has three sectors on its second side and no track on its first, with the counter
as high as it may be. -/
def highCount : Fdc :=
  let sector (record : UInt8) : Sector := ⟨⟨7, 1, record, 2⟩, 0, 0, .empty⟩
  let disk : Image := ⟨2, [⟨0, 1, 0, 0, [sector 0x41, sector 0x46, sector 0x42]⟩], false⟩
  { initial.performAll [.attach 1, .insert 1 disk, .setMotor true, .clock] with nextId := 0xFFFFFFFFFFFFFFFD }

/-- The second sector is the first to be seen; time passes before the last one. -/
theorem readId_rotates_highCount : ∃ reports h, ReadsIds 1 1 highCount reports h ∧
    reports = [[5, 0, 0, 7, 1, 0x46, 2], [5, 0, 0, 7, 1, 0x42, 2], [5, 0, 0, 7, 1, 0x41, 2]] ∧ h.nextId = 0 ∧
    highCount.askId [0x0A, 1] = ([0x41, 1, 1, 0, 0, 0, 0], highCount) := by
  have hask : AsksForId 1 1 [0x4A, 5] := ⟨0x4A, ⟨5⟩, rfl, rfl, rfl, rfl⟩
  have hne : highCount.underHead 1 1 ≠ [] := List.cons_ne_nil _ _
  have hlimit : highCount.nextId.toNat + (highCount.underHead 1 1).length ≤ 2 ^ 64 := by decide
  let second : Fdc := { highCount with nextId := highCount.nextId + 1 }
  let third : Fdc := { second.clock with nextId := second.nextId + 1 }
  let last : Fdc := { third with nextId := third.nextId + 1 }
  have hfirst : (highCount.askId [0x4A, 5]).2 = second := (readId_rotates 1 1).1 rfl rfl hask hne
  have hsecond : (second.askId [0x4A, 5]).2 = { second with nextId := second.nextId + 1 } :=
    (readId_rotates 1 1).1 rfl rfl hask hne
  have hthird : (third.askId [0x4A, 5]).2 = last := (readId_rotates 1 1).1 rfl rfl hask hne
  have hrun : ReadsIds 1 1 highCount
      [(highCount.askId [0x4A, 5]).1, (second.askId [0x4A, 5]).1, (third.askId [0x4A, 5]).1] last := by
    refine .turn ⟨rfl, rfl, rfl, rfl, rfl⟩ hask ?_
    rw [hfirst]
    refine .turn ⟨rfl, rfl, rfl, rfl, rfl⟩ hask ?_
    rw [hsecond]
    refine .turn (g := third) ⟨rfl, rfl, rfl, rfl, rfl⟩ hask ?_
    rw [hthird]
    exact .done ⟨rfl, rfl, rfl, rfl, rfl⟩
  obtain ⟨hreports, hafter⟩ := (readId_rotates 1 1).2.1 hrun rfl (by decide) hlimit
  refine ⟨_, last, hrun, hreports.trans rfl, hafter.nextId.trans (by decide), ?_⟩
  exact (readId_rotates 1 0).2.2 rfl rfl ⟨0x0A, ⟨1⟩, rfl, rfl, rfl, rfl⟩ rfl

end AmstradCpc.Fdc
