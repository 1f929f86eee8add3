/-
Formatting a track, from the command to the result. The sector IDs come in byte by byte, and nothing
happens to the disk until the last of them is there; a track without sectors is formatted with the
command itself. Then the place under the head has a fresh track with a blank sector for each ID, in
their order, and all other places have what they had (`Image.FormattedAt`), whatever order the tracks
of the disk were in.
-/
import AmstradCpc.Proofs.Disk.Places
import AmstradCpc.Proofs.Fdc.Exchange
import AmstradCpc.Proofs.Word

namespace AmstradCpc.Fdc

open Disk (Image Sector SectorId Track)

/-! ## The sector IDs -/

/-- The ID that the four bytes from place `4 * i` on give. -/
def idAt (bytes : List UInt8) (i : Nat) : SectorId :=
  ⟨bytes.getD (4 * i) 0, bytes.getD (4 * i + 1) 0, bytes.getD (4 * i + 2) 0, bytes.getD (4 * i + 3) 0⟩

/-- The last ID in a row of them, zeros if there is none. -/
def lastId (bytes : List UInt8) : List UInt8 :=
  if bytes = [] then [0, 0, 0, 0] else bytes.drop (bytes.length - 4)

theorem exists_cons_four {bytes : List UInt8} {n : Nat} (h : bytes.length = 4 * (n + 1)) :
    ∃ c hd r m rest, bytes = c :: hd :: r :: m :: rest ∧ rest.length = 4 * n := by
  rcases bytes with - | ⟨c, - | ⟨hd, - | ⟨r, - | ⟨m, rest⟩⟩⟩⟩
  case cons.cons.cons.cons => exact ⟨c, hd, r, m, rest, rfl, by simp only [List.length_cons] at h; omega⟩
  all_goals
    simp only [List.length_cons, List.length_nil] at h
    omega

theorem sectorIds_eq {n : Nat} : ∀ {bytes : List UInt8}, bytes.length = 4 * n →
    sectorIds bytes = (List.range n).map (idAt bytes) := by
  induction n with
  | zero =>
    intro bytes h
    rw [List.eq_nil_of_length_eq_zero h]
    rfl
  | succ n ih =>
    intro bytes h
    obtain ⟨c, hd, r, m, rest, rfl, hrest⟩ := exists_cons_four h
    rw [sectorIds, ih hrest, List.range_succ_eq_map, List.map_cons, List.map_map]
    rfl

theorem toList_getLastD_sectorIds {n : Nat} : ∀ {bytes : List UInt8}, bytes.length = 4 * n →
    SectorId.toList ((sectorIds bytes).getLastD ⟨0, 0, 0, 0⟩) = lastId bytes := by
  induction n with
  | zero =>
    intro bytes h
    rw [List.eq_nil_of_length_eq_zero h]
    rfl
  | succ n ih =>
    intro bytes h
    obtain ⟨c, hd, r, m, rest, rfl, hrest⟩ := exists_cons_four h
    cases n with
    | zero =>
      rw [List.eq_nil_of_length_eq_zero hrest]
      rfl
    | succ n =>
      obtain ⟨c', hd', r', m', rest', rfl, hrest'⟩ := exists_cons_four hrest
      have hdrop : lastId (c :: hd :: r :: m :: c' :: hd' :: r' :: m' :: rest') =
          lastId (c' :: hd' :: r' :: m' :: rest') := by
        simp only [lastId, reduceCtorEq, if_false, List.length_cons]
        rfl
      rw [hdrop, ← ih hrest]
      rfl

/-- As long as IDs are missing, what has come of them is kept and nothing else changes. -/
theorem performAll_ids_short {select : Select} {count filler : UInt8} : ∀ (bytes : List UInt8) {f : Fdc}
    {received : List UInt8}, f.phase = .formatting select count filler received →
    (received ++ bytes).length < 4 * count.toNat →
    f.performAll (bytes.map .write) = { f with phase := .formatting select count filler (received ++ bytes) }
  | [], f, received, h, _ => by
    rw [List.append_nil, ← h]
    rfl
  | v :: bytes, f, received, h, hlen => by
    have hsplit : received ++ v :: bytes = received ++ [v] ++ bytes := by simp
    have hwrite : f.write v = { f with phase := .formatting select count filler (received ++ [v]) } := by
      simp only [List.length_append, List.length_cons] at hlen
      simp only [write, h]
      exact if_neg (by simp only [List.length_append, List.length_singleton]; omega)
    show (f.write v).performAll (bytes.map .write) = _
    rw [hsplit] at hlen ⊢
    rw [hwrite]
    exact performAll_ids_short bytes rfl hlen

theorem modifyDrive_setPhase (f : Fdc) (p : Phase) (unit : Nat) (change : Drive → Drive) :
    ({ f with phase := p } : Fdc).modifyDrive unit change = { f.modifyDrive unit change with phase := p } := by
  have hdrive : ({ f with phase := p } : Fdc).drive unit = f.drive unit := rfl
  simp only [modifyDrive, hdrive]
  cases f.drive unit <;> rfl

/-- In which phase a track is formatted does not matter. -/
theorem commitFormat_setPhase (f : Fdc) (p : Phase) (select : Select) (filler : UInt8)
    (received : List UInt8) :
    ({ f with phase := p } : Fdc).commitFormat select filler received =
      f.commitFormat select filler received := by
  simp only [commitFormat, modifyDisk, modifyDrive_setPhase]
  rfl

theorem modifyDisk_of_disk {f : Fdc} {unit : Nat} {d : Image} (h : f.disk unit = some d)
    (change : Image → Image) : f.modifyDisk unit change = f.modifyDisk unit fun _ => change d := by
  obtain ⟨drive, hdrive, hd⟩ := Option.bind_eq_some_iff.mp h
  simp only [modifyDisk, modifyDrive, hdrive, hd, Option.map_some]

/-- The sector IDs of a track, written one after the other, have it formatted. -/
theorem performAll_ids {select : Select} {count filler : UInt8} {bytes : List UInt8} {f : Fdc}
    (h : f.phase = .formatting select count filler []) (hne : bytes ≠ [])
    (hlen : bytes.length = 4 * count.toNat) :
    f.performAll (bytes.map .write) = f.commitFormat select filler bytes := by
  obtain ⟨init, v, rfl⟩ : ∃ init v, bytes = init ++ [v] := ⟨_, _, (List.dropLast_concat_getLast hne).symm⟩
  simp only [List.length_append, List.length_singleton] at hlen
  rw [List.map_append, performAll_append,
    performAll_ids_short init h (by rw [List.nil_append]; omega), List.nil_append]
  simp only [performAll, List.map_singleton, List.foldl_cons, List.foldl_nil, perform, write]
  rw [if_pos (by simp only [List.length_append, List.length_singleton]; omega)]
  exact commitFormat_setPhase f _ select filler (init ++ [v])

/-! ## The command -/

theorem head_lt (s : Select) : Image.canFormat s.head = true := by
  have h := UInt8.le_iff_toNat_le.mp s.head_le
  rw [Image.canFormat, decide_eq_true_eq, UInt8.lt_iff_toNat_lt]
  exact Nat.lt_of_le_of_lt h (by decide)

theorem status_eq (s : Select) : s.status = 4 * s.head + s.unit.toUInt8 := by
  rw [Select.unit, show (s.bits &&& 3).toNat.toUInt8 = s.bits &&& 3 from UInt8.ofNat_toNat]
  obtain ⟨bits⟩ := s
  revert bits
  exact forall_byte (by decide +kernel)

/-- The bytes of a command to format a track. The gap between the sectors is not used. -/
def Select.formatCommand (s : Select) (first sizeCode count gap filler : UInt8) : List UInt8 :=
  [first, s.bits, sizeCode, count, gap, filler]

/-- A drive that is ready waits for the sector IDs, or has the track formatted if there are none. -/
theorem performAll_formatCommand {f : Fdc} (hidle : f.phase = .idle) {s : Select}
    (hready : f.isReady s.unit = true) {first : UInt8} (hfirst : Command.ofByte first = .formatTrack)
    (sizeCode count gap filler : UInt8) :
    f.performAll ((s.formatCommand first sizeCode count gap filler).map .write) =
      if count = 0 then f.commitFormat s filler []
      else { f with phase := .formatting s count filler [] } := by
  have hsix : (s.formatCommand first sizeCode count gap filler).length =
      (Command.ofByte ((s.formatCommand first sizeCode count gap filler).headD 0)).length := by
    simp [Select.formatCommand, hfirst, Command.length]
  have hne : s.formatCommand first sizeCode count gap filler ≠ [] := List.cons_ne_nil first _
  obtain ⟨p, hp⟩ := performAll_of_idle hidle hne hsix
  have hrequest : Request.ofBytes (s.formatCommand first sizeCode count gap filler) =
      .format s sizeCode count filler := by
    simp only [Select.formatCommand, Request.ofBytes, hfirst]
  have hready' : ({ f with phase := p } : Fdc).isReady s.unit = true := hready
  rw [hp, hrequest, run, formatTrack, if_pos hready', commitFormat_setPhase]

/-- With the bytes of all sector IDs after the command, the track is formatted. -/
theorem performAll_formatCommand_ids {f : Fdc} (hidle : f.phase = .idle) {s : Select}
    (hready : f.isReady s.unit = true) {first : UInt8} (hfirst : Command.ofByte first = .formatTrack)
    (sizeCode gap filler : UInt8) {count : UInt8} {bytes : List UInt8}
    (hlen : bytes.length = 4 * count.toNat) :
    f.performAll ((s.formatCommand first sizeCode count gap filler ++ bytes).map .write) =
      f.commitFormat s filler bytes := by
  rw [List.map_append, performAll_append,
    performAll_formatCommand hidle hready hfirst sizeCode count gap filler]
  split
  · next hzero =>
    have hnil : bytes = [] := List.eq_nil_of_length_eq_zero (by rw [hlen, hzero]; rfl)
    rw [hnil]
    rfl
  · next hne =>
    have hbytes : bytes ≠ [] := by
      rintro rfl
      rw [List.length_nil] at hlen
      exact hne (UInt8.toNat_inj.mp (show count.toNat = 0 by omega))
    rw [performAll_ids rfl hbytes hlen, commitFormat_setPhase]

/-- The sector of filler bytes whose ID is the one at place `i` of a row of IDs. -/
def blankAt (bytes : List UInt8) (filler : UInt8) (i : Nat) : Sector where
  id := idAt bytes i
  status1 := 0
  status2 := 0
  data := byteRun (128 * 2 ^ min (idAt bytes i).sizeCode.toNat 6) filler

theorem map_blankSector {bytes : List UInt8} {n : Nat} (h : bytes.length = 4 * n) (filler : UInt8) :
    (sectorIds bytes).map (Image.blankSector filler) = (List.range n).map (blankAt bytes filler) := by
  rw [sectorIds_eq h, List.map_map]
  refine List.map_congr_left fun i _ => ?_
  rw [Function.comp_apply, Image.blankSector, Disk.sectorLength, Nat.shiftLeft_eq]
  rfl

/-- **A track is formatted with exactly the sectors whose IDs are written.** A command for `n` sectors
to a drive that is ready takes `4 * n` bytes. Before the last of them nothing but the phase of the
controller has changed; with it, or with the command if there are no sectors, the disk in the drive
has the track, and the result begins with head and unit and ends with the last ID. -/
theorem performAll_formatter {f : Fdc} (hidle : f.phase = .idle) {s : Select}
    (hready : f.isReady s.unit = true) {first : UInt8} (hfirst : Command.ofByte first = .formatTrack)
    (sizeCode gap filler : UInt8) {count : UInt8} {bytes : List UInt8}
    (hlen : bytes.length = 4 * count.toNat) :
    let command := s.formatCommand first sizeCode count gap filler
    (∀ k < 4 * count.toNat, f.performAll ((command ++ bytes.take k).map .write) =
      { f with phase := .formatting s count filler (bytes.take k) }) ∧
    ∃ d d', f.disk s.unit = some d ∧
      f.performAll ((command ++ bytes).map .write) =
        (f.modifyDisk s.unit fun _ => d').enterResult
          ([4 * s.head + s.unit.toUInt8, 0, 0] ++ lastId bytes) ∧
      d.FormattedAt d' (f.cylinder s.unit) s.head ((List.range count.toNat).map (blankAt bytes filler)) := by
  intro command
  constructor
  · intro k hk
    have hne : count ≠ 0 := by
      rintro rfl
      exact absurd hk (Nat.not_lt_zero k)
    have hshort : ([] ++ bytes.take k).length < 4 * count.toNat := by
      rw [List.nil_append, List.length_take]
      omega
    rw [List.map_append, performAll_append,
      performAll_formatCommand hidle hready hfirst sizeCode count gap filler, if_neg hne]
    exact performAll_ids_short (bytes.take k) rfl hshort
  · obtain ⟨d, hd⟩ := exists_disk_of_ready hready
    have hformatted := d.formattedAt_formatTrack (f.cylinder s.unit) (head_lt s) (sectorIds bytes) filler
    rw [map_blankSector hlen] at hformatted
    refine ⟨d, d.formatTrack (f.cylinder s.unit) s.head (sectorIds bytes) filler, hd, ?_, hformatted⟩
    rw [performAll_formatCommand_ids hidle hready hfirst sizeCode gap filler hlen, commitFormat,
      toList_getLastD_sectorIds hlen, status_eq, modifyDisk_of_disk hd]

/-- A ready drive whose disk has two tracks out of order, and none on its second side. -/
def strewnDrive : Fdc :=
  initial.performAll [.attach 1, .insert 1 ⟨1, [⟨5, 0, 0, 0, []⟩, ⟨2, 0, 0, 0, []⟩], false⟩,
    .setMotor true, .clock]

/-- One sector, whose size code stands for the longest there is. -/
theorem performAll_formatter_strewn :
    let bytes : List UInt8 := [7, 1, 0x41, 9]
    (strewnDrive.phase = .idle ∧ strewnDrive.isReady 1 = true ∧ Command.ofByte 0x4D = .formatTrack ∧
      bytes.length = 4 * (1 : UInt8).toNat) ∧
    let g := strewnDrive.performAll (([0x4D, 5, 2, 1, 0x52, 0xE5] ++ bytes).map .write)
    g.phase = .result [5, 0, 0, 7, 1, 0x41, 9] ∧ ∃ d', g.disk 1 = some d' ∧
      (∃ t, d'.track 0 1 = some t ∧ t.sectors = [⟨⟨7, 1, 0x41, 9⟩, 0, 0, byteRun 8192 0xE5⟩]) ∧
      d'.track 5 0 = some ⟨5, 0, 0, 0, []⟩ ∧ d'.sides.toNat = 2 ∧ d'.dirty = true := by
  intro bytes
  have hready : strewnDrive.isReady (Select.mk 5).unit = true := rfl
  obtain ⟨-, d, d', hd, hg, hformatted⟩ :=
    performAll_formatter (f := strewnDrive) rfl hready (show Command.ofByte 0x4D = .formatTrack from rfl)
      2 0x52 0xE5 (show bytes.length = 4 * (1 : UInt8).toNat from rfl)
  obtain rfl : ⟨1, [⟨5, 0, 0, 0, []⟩, ⟨2, 0, 0, 0, []⟩], false⟩ = d := Option.some.inj hd
  refine ⟨⟨rfl, hready, rfl, rfl⟩, ?_⟩
  intro g
  have hg' : g = _ := hg
  refine ⟨by rw [hg']; rfl, d', by rw [hg']; rfl, hformatted.track, ?_, hformatted.sides, hformatted.dirty⟩
  exact (hformatted.elsewhere 5 0 (by decide)).1

end AmstradCpc.Fdc
