/-
No command keeps the controller busy for ever. A host that goes by the main status
register reads when the data register is to be read and writes otherwise, any byte it
likes. `Phase.accesses` bounds what it has to go through before the controller is idle:
the bytes that a command is short of, then the sectors that the transfer can still come
to, then the result. Each access makes that less, whatever the disks hold and whatever
is written, so from every state that a run of actions comes to, the controller is idle
again after a number of accesses that is known beforehand.
-/
import AmstradCpc.Proofs.Fdc.Exchange

namespace AmstradCpc.Fdc

open Disk (Image Sector)

/-- One access of a host that goes by the main status register: it reads the data
register if that is to be read, and writes this byte to it otherwise. -/
def follow (f : Fdc) (v : UInt8) : Fdc := if f.wantsRead then f.read.2 else f.write v

/-- A row of such accesses. Where the register is to be read, the byte is not used. -/
def followAll (f : Fdc) (bytes : List UInt8) : Fdc := bytes.foldl follow f

theorem followAll_append (f : Fdc) (first second : List UInt8) :
    f.followAll (first ++ second) = (f.followAll first).followAll second := List.foldl_append

/-- Accesses that a command takes when it is complete, at most: for 256 sectors of the
longest kind, and for a result. -/
def longestExecution : Nat := 256 * 8192 + 7

/-- Accesses until the controller is idle, at most. -/
def Phase.accesses : Phase → Nat
  | .idle => 0
  | .command received => 9 - received.length + longestExecution
  | .reading data next outcome => data.size - next + outcome.length
  | .writing t received => t.sectorsLeft * t.sectorBytes - received.size + 7
  | .formatting _ count _ received => 4 * count.toNat - received.length + 7
  | .result left => left.length

/-! ## When a command is complete -/

theorem Command.length_le (c : Command) : c.length ≤ 9 := by cases c <;> decide

theorem Transfer.Ended.accesses {t : Transfer} {g : Fdc} (h : t.Ended g) : g.phase.accesses = 7 := by
  rcases h with h | ⟨_, -, h⟩ <;> rw [h] <;> rfl

theorem sectorBytes_le_left (t : Transfer) : t.sectorBytes ≤ t.sectorsLeft * t.sectorBytes :=
  Nat.le_mul_of_pos_left _ (Nat.succ_pos _)

theorem sectors_le_longest (t : Transfer) : t.sectorsLeft * t.sectorBytes + 7 ≤ longestExecution :=
  Nat.add_le_add_right (Nat.mul_le_mul t.sectorsLeft_le t.sectorBytes_le) 7

theorem accesses_startRead (f : Fdc) (data : ByteArray) (outcome : List UInt8) :
    (f.startRead data outcome).phase.accesses ≤ data.size + outcome.length := by
  unfold startRead
  split
  · exact Nat.le_add_left ..
  · exact Nat.le_refl _

theorem accesses_beginWrite (f : Fdc) (t : Transfer) :
    (f.beginWrite t).phase.accesses ≤ t.sectorsLeft * t.sectorBytes + 7 := by
  rcases beginWrite_cases f t with hended | hnext
  · rw [hended.accesses]
    exact Nat.le_add_left ..
  · rw [hnext]
    exact Nat.le_refl _

/-- A sector that is complete is one less to come. -/
theorem accesses_commitSector (f : Fdc) (t : Transfer) (data : ByteArray) :
    (f.commitSector t data).phase.accesses + t.sectorBytes ≤ t.sectorsLeft * t.sectorBytes + 7 := by
  rcases commitSector_cases f t data with hended | ⟨hne, hnext⟩
  · have := sectorBytes_le_left t
    rw [hended.accesses]
    omega
  · rw [hnext, ← Transfer.sectorsLeft_next hne, Nat.succ_mul]
    show _ - 0 + 7 + t.sectorBytes ≤ _
    simp only [Transfer.sectorBytes, Transfer.sectorLength]
    omega

theorem length_recordsFrom (first last : UInt8) : (recordsFrom first last).length = (last - first).toNat + 1 := by
  rw [recordsFrom, List.length_map, List.length_range]

theorem size_gather (t : Transfer) (find : UInt8 → Option Sector) : ∀ (records : List UInt8)
    (g : Gathered) (record : UInt8),
    (gather t find g record records).1.data.size ≤ g.data.size + records.length * t.sectorLength
  | [], _, _ => Nat.le_add_right ..
  | r :: rest, g, _ => by
    rw [gather]
    split
    · exact Nat.le_add_right ..
    · next s _ =>
      have ih := size_gather t find rest (g.add t s) r
      have hadd : (g.add t s).data.size = g.data.size + t.sectorLength := by
        simp only [Gathered.add, ByteArray.size_append, size_sliceOrZero]
      rw [List.length_cons, Nat.succ_mul]
      omega

theorem size_foldl_slices (sectors : List Sector) (n : Nat) :
    (sectors.foldl (fun out s => out ++ sliceOrZero s.data 0 n) .empty).size = sectors.length * n := by
  rw [foldl_append, ByteArray.empty_append, size_joined, List.map_map]
  simp only [Function.comp_def, size_sliceOrZero]
  rw [List.map_const', List.sum_replicate_nat]

/-- Whatever a complete command leads to, it takes no more accesses than the longest. -/
theorem accesses_run (f : Fdc) (request : Request) : (f.run request).phase.accesses ≤ longestExecution := by
  have hresult : ∀ (g : Fdc) (bytes : List UInt8), bytes.length ≤ 7 →
      (g.enterResult bytes).phase.accesses ≤ longestExecution := fun g bytes h =>
    Nat.le_trans h (by decide)
  have hread : ∀ (g : Fdc) (t : Transfer) (data : ByteArray) (outcome : List UInt8) (n : Nat), n ≤ 256 →
      data.size ≤ n * t.sectorLength → outcome.length = 7 →
      (g.startRead data outcome).phase.accesses ≤ longestExecution := by
    intro g t data outcome n hn hdata hout
    have hstart := accesses_startRead g data outcome
    have hlen := Nat.mul_le_mul hn t.sectorLength_le
    simp only [longestExecution]
    omega
  cases request with
  | specify | seek => exact Nat.zero_le _
  | senseDrive select => exact hresult _ _ (by simp)
  | senseInterrupt =>
    simp only [run, senseInterrupt]
    split <;> exact hresult _ _ (by simp)
  | read t =>
    simp only [run, readSectors]
    split
    · next disk _ _ =>
      have hgather := size_gather t (disk.sector (f.cylinder t.select.unit) t.select.head t.cylinder)
        (recordsFrom t.record t.lastRecord) { data := .empty } t.record
      rw [length_recordsFrom, ByteArray.size_empty, Nat.zero_add] at hgather
      exact hread _ t _ _ _ t.sectorsLeft_le hgather rfl
    · exact hresult _ _ (Nat.le_refl _)
  | readTrack t =>
    simp only [run, readTrack]
    split
    · split
      · exact hresult _ _ (Nat.le_refl _)
      · refine hread _ t _ _ _ ?_ (Nat.le_of_eq (size_foldl_slices _ _)) rfl
        have := t.lastRecord.toNat_lt
        exact Nat.le_trans (List.length_take_le ..) (by omega)
    · exact hresult _ _ (Nat.le_refl _)
  | write t =>
    simp only [run, writeSectors]
    split
    · exact Nat.le_trans (accesses_beginWrite f t) (sectors_le_longest t)
    · exact hresult _ _ (Nat.le_refl _)
  | readId select =>
    simp only [run, readId]
    split
    · split <;> exact hresult _ _ (by simp [SectorId.toList])
    · exact hresult _ _ (by simp)
  | format select sizeCode count filler =>
    have hcount := count.toNat_lt
    simp only [run, formatTrack]
    split
    · split
      · exact hresult _ _ (by simp [SectorId.toList])
      · show 4 * count.toNat - 0 + 7 ≤ longestExecution
        simp only [longestExecution]
        omega
    · exact hresult _ _ (by simp)
  | version | invalid => exact hresult _ _ (by simp)

/-! ## Every access -/

/-- A command under way gets shorter of bytes, or is carried out. -/
theorem accesses_collected {f : Fdc} {received : List UInt8} (h : f.phase.Coherent)
    (hc : f.phase.collected = some received) (v : UInt8) :
    (f.write v).phase.accesses < 9 - received.length + longestExecution := by
  rcases write_collected h hc v with ⟨hlt, hw⟩ | ⟨heq, hw, -⟩
  · have hle := Command.length_le (Command.ofByte ((received ++ [v]).headD v))
    simp only [List.length_append, List.length_singleton] at hlt
    rw [hw]
    simp only [Phase.accesses, List.length_append, List.length_singleton]
    omega
  · have hle := Command.length_le (Command.ofByte ((received ++ [v]).headD v))
    have hrun := accesses_run f (.ofBytes (received ++ [v]))
    simp only [List.length_append, List.length_singleton] at heq
    rw [hw]
    omega

theorem accesses_read {f : Fdc} {v : UInt8} {rest : List UInt8} (h : f.phase.Coherent)
    (hp : f.phase.pending = v :: rest) : f.read.2.phase.accesses = rest.length := by
  obtain ⟨p, hread, -, hpending, hidle⟩ := read_pending h hp
  rw [hread, ← hpending]
  show p.accesses = p.pending.length
  cases p with
  | idle | result => rfl
  | reading data next outcome =>
    have hlen : data.data.toList.length = data.size := Array.length_toList
    simp only [Phase.accesses, Phase.pending, List.length_append, List.length_drop, hlen]
  | command | writing | formatting =>
    -- Nothing is to be read in these phases, so the last byte was read; but then the phase is idle.
    simp only [Phase.pending] at hpending
    cases hidle hpending.symm

/-- **Each access brings the controller nearer to its idle phase.** -/
theorem accesses_follow {f : Fdc} (h : f.phase.Coherent) (hne : f.phase ≠ .idle) (v : UInt8) :
    (f.follow v).phase.accesses < f.phase.accesses := by
  have hco := h
  cases hp : f.phase with
  | idle => exact absurd hp hne
  | command received =>
    rw [follow, if_neg (by simp [wantsRead_eq, hp])]
    exact accesses_collected h (by rw [hp, Phase.collected]) v
  | reading data next outcome =>
    simp only [hp, Phase.Coherent] at h
    have hlen : data.data.toList.length = data.size := Array.length_toList
    have hpending : f.phase.pending ≠ [] := by
      rw [hp]
      exact fun hnil => h.2 (List.append_eq_nil_iff.mp hnil).2
    obtain ⟨w, rest, hw⟩ := List.exists_cons_of_ne_nil hpending
    have htotal := congrArg List.length hw
    simp only [hp, Phase.pending, List.length_append, List.length_drop, List.length_cons, hlen] at htotal
    rw [follow, if_pos (by simp [wantsRead_eq, hp]), accesses_read hco hw]
    simp only [Phase.accesses]
    omega
  | result left =>
    simp only [hp, Phase.Coherent] at h
    obtain ⟨w, rest, rfl⟩ := List.exists_cons_of_ne_nil h
    rw [follow, if_pos (by simp [wantsRead_eq, hp]), accesses_read hco (by rw [hp, Phase.pending])]
    exact Nat.lt_succ_self _
  | writing t received =>
    have hfits := sectorBytes_le_left t
    have hsector : received.size < t.sectorBytes := by rwa [hp] at h
    have hsize : (received.push v).size = received.size + 1 := by simp
    rw [follow, if_neg (by simp [wantsRead_eq, hp])]
    simp only [write, hp]
    split
    · have hcommit := accesses_commitSector { f with phase := .idle } t (received.push v)
      show _ < t.sectorsLeft * t.sectorBytes - received.size + 7
      omega
    · simp only [Phase.accesses]
      omega
  | formatting select count filler received =>
    simp only [hp, Phase.Coherent] at h
    rw [follow, if_neg (by simp [wantsRead_eq, hp])]
    simp only [write, hp]
    split
    · show 7 < 4 * count.toNat - received.length + 7
      omega
    · simp only [Phase.accesses, List.length_append, List.length_singleton]
      omega

/-! ## Rows of accesses -/

theorem coherent_follow {f : Fdc} (h : f.phase.Coherent) (v : UInt8) : (f.follow v).phase.Coherent := by
  unfold follow
  split
  · exact coherent_read h
  · exact coherent_write h v

/-- As many accesses as are bounded by the phase, or fewer, make the controller idle. -/
theorem followAll_idle : ∀ (bytes : List UInt8) {f : Fdc}, f.phase.Coherent → f.phase ≠ .idle →
    f.phase.accesses ≤ bytes.length →
    ∃ first rest, bytes = first ++ rest ∧ (f.followAll first).phase = .idle
  | [], f, h, hne, hlen => by
    have hlt := accesses_follow h hne 0
    exact absurd hlen (by simp only [List.length_nil]; omega)
  | v :: bytes, f, h, hne, hlen => by
    have hlt := accesses_follow h hne v
    rw [List.length_cons] at hlen
    by_cases hidle : (f.follow v).phase = .idle
    · exact ⟨[v], bytes, rfl, hidle⟩
    · obtain ⟨first, rest, rfl, hfirst⟩ := followAll_idle bytes (coherent_follow h v) hidle (by omega)
      exact ⟨v :: first, rest, rfl, hfirst⟩

/-- The sectors of a transfer to the disk are taken in one after the other, until it
has come to the last or to one that is missing. -/
theorem followAll_writing : ∀ (n : Nat) {f : Fdc} {t : Transfer} {received : ByteArray}
    {bytes : List UInt8}, f.phase = .writing t received → received.size < t.sectorBytes →
    t.sectorsLeft = n → n * t.sectorBytes ≤ received.size + bytes.length →
    ∃ sectors ≤ n, ∃ first rest, bytes = first ++ rest ∧
      received.size + first.length = sectors * t.sectorBytes ∧ t.Ended (f.followAll first)
  | 0, _, _, _, _, _, _, hleft, _ => nomatch hleft
  | n + 1, f, t, received, bytes, hp, hreceived, hleft, hlen => by
    rw [Nat.succ_mul] at hlen
    -- The bytes that the sector is short of come first.
    let wanted := t.sectorBytes - received.size
    have htake : (bytes.take wanted).length = wanted := List.length_take_of_le (by omega)
    have hne : bytes.take wanted ≠ [] := List.ne_nil_of_length_pos (by omega)
    have hsector : f.followAll (bytes.take wanted) =
        { f with phase := .idle }.commitSector t (received ++ byteList (bytes.take wanted)) :=
      foldl_writing (fun g v received hg => if_neg (by simp [wantsRead_eq, hg])) _ hp hne (by omega)
    rcases commitSector_cases { f with phase := .idle } t (received ++ byteList (bytes.take wanted)) with
      hended | ⟨hmore, hnext⟩
    · refine ⟨1, by omega, _, _, (List.take_append_drop wanted bytes).symm, by omega, ?_⟩
      rw [hsector]
      exact hended
    · have hleft' : { t with record := t.record + 1 }.sectorsLeft = n := by
        have := Transfer.sectorsLeft_next hmore
        omega
      have hdrop : (bytes.drop wanted).length = bytes.length - wanted := List.length_drop
      rw [← hsector] at hnext
      obtain ⟨sectors, hle, first, rest, hsplit, hcount, hended⟩ :=
        followAll_writing n hnext (Nat.lt_of_lt_of_le Nat.zero_lt_one (Nat.le_max_left ..)) hleft'
          (show n * t.sectorBytes ≤ 0 + (bytes.drop wanted).length by omega)
      have hcount' : 0 + first.length = sectors * t.sectorBytes := hcount
      refine ⟨sectors + 1, by omega, bytes.take wanted ++ first, rest, ?_, ?_, ?_⟩
      · rw [List.append_assoc, ← hsplit, List.take_append_drop]
      · rw [List.length_append, Nat.succ_mul]
        omega
      · rw [followAll_append]
        exact hended

/-! ## Every state that a run comes to -/

/-- Accesses that bring the controller back to its idle phase from anywhere, and from
that phase through the longest command. -/
def busiest : Nat := 9 + longestExecution

theorem accesses_follow_lt {f : Fdc} (h : f.phase.Coherent) (hlt : f.phase.accesses < busiest) (v : UInt8) :
    (f.follow v).phase.accesses < busiest := by
  by_cases hidle : f.phase = .idle
  · rw [follow, if_neg (by simp [wantsRead_eq, hidle])]
    exact accesses_collected h (by rw [hidle, Phase.collected]) v
  · exact Nat.lt_trans (accesses_follow h hidle v) hlt

theorem accesses_perform {f : Fdc} (h : f.phase.Coherent) (hlt : f.phase.accesses < busiest) (a : Action) :
    (f.perform a).phase.accesses < busiest := by
  cases a with
  | write v =>
    cases hr : f.wantsRead with
    | true =>
      rw [perform, write_of_wantsRead hr]
      exact hlt
    | false =>
      have hfollow := accesses_follow_lt h hlt v
      rwa [follow, if_neg (by simp [hr])] at hfollow
  | read =>
    cases hr : f.wantsRead with
    | true =>
      have hfollow := accesses_follow_lt h hlt 0
      rwa [follow, if_pos hr] at hfollow
    | false =>
      rw [perform, read_of_not_wantsRead hr]
      exact hlt
  | reset => exact Nat.lt_of_le_of_lt (Nat.zero_le _) hlt
  | setMotor | clock | attach | detach | insert | eject | setCylinder =>
    rw [phase_perform (by simp) (by simp) (by simp)]
    exact hlt

theorem reachable_accesses (actions : List Action) :
    (initial.performAll actions).phase.Coherent ∧ (initial.performAll actions).phase.accesses < busiest :=
  performAll_keeps (P := fun _ => True)
    (I := fun f => f.phase.Coherent ∧ f.phase.accesses < busiest)
    (fun _ a hf _ => ⟨coherent_perform hf.1 a, accesses_perform hf.1 hf.2 a⟩) actions
    ⟨trivial, by decide⟩ fun a _ => a.brings_true

/-- **No command keeps the controller busy for ever.** From every state that a run of
actions comes to, a host that goes by the main status register finds the controller
idle after one or more accesses, and no more than a fixed number, whatever it writes.
If a transfer to the disk is going on, it ends after no more sectors than there are
from the one that is being written to the last, of which there are at most 256: with
its last sector written, or at one that the disk does not have. -/
theorem reachable_returns_idle (actions : List Action) {bytes : List UInt8}
    (hlen : busiest ≤ bytes.length) :
    let f := initial.performAll actions
    (∃ first rest, bytes = first ++ rest ∧ first ≠ [] ∧ (f.followAll first).phase = .idle) ∧
      ∀ t received, f.phase = .writing t received →
        t.sectorsLeft ≤ 256 ∧ ∃ sectors ≤ t.sectorsLeft, ∃ first rest, bytes = first ++ rest ∧
          received.size + first.length = sectors * t.sectorBytes ∧ t.Ended (f.followAll first) := by
  intro f
  obtain ⟨hco, hlt⟩ := reachable_accesses actions
  constructor
  · obtain ⟨v, rest, rfl⟩ := List.exists_cons_of_length_pos (Nat.lt_of_lt_of_le (by decide) hlen)
    have hfollow := accesses_follow_lt hco hlt v
    rw [List.length_cons] at hlen
    by_cases hidle : (f.follow v).phase = .idle
    · exact ⟨[v], rest, rfl, by simp, hidle⟩
    · obtain ⟨first, rest, rfl, hfirst⟩ :=
        followAll_idle rest (coherent_follow hco v) hidle (by omega)
      exact ⟨v :: first, rest, rfl, by simp, hfirst⟩
  · intro t received hp
    have hsectors := sectors_le_longest t
    have hreceived : received.size < t.sectorBytes := by
      have := hco
      rwa [hp] at this
    simp only [busiest] at hlen
    exact ⟨t.sectorsLeft_le, followAll_writing t.sectorsLeft hp hreceived rfl (by omega)⟩

/-- One sector, with the number 1. -/
def loneSector : Image :=
  ⟨1, [⟨0, 0, 0, 0, [⟨⟨0, 0, 1, 0⟩, 0, 0, byteRun 128 0⟩]⟩], false⟩

/-- Four bytes each for the sectors 1 and 2. -/
def pastLoneSector : Transfer := ⟨⟨0⟩, 0, 0, 1, 0, 2, 4, false⟩

/-- The drive is ready and a write to these two sectors waits for its data. -/
def writingLoneSector : List Action :=
  [.attach 0, .insert 0 loneSector, .setMotor true, .clock] ++
    [0x45, 0, 0, 0, 1, 0, 2, 0x2A, 4].map .write

theorem writingLoneSector_returns_idle :
    let f := initial.performAll writingLoneSector
    let bytes := List.replicate busiest 0x55
    (busiest ≤ bytes.length ∧ f.phase = .writing pastLoneSector .empty) ∧
      (∃ first rest, bytes = first ++ rest ∧ first ≠ [] ∧ (f.followAll first).phase = .idle) ∧
      ∃ sectors ≤ 2, ∃ first rest, bytes = first ++ rest ∧ first.length = sectors * 4 ∧
        pastLoneSector.Ended (f.followAll first) := by
  intro f bytes
  have hlen : busiest ≤ bytes.length := Nat.le_of_eq List.length_replicate.symm
  have hphase : f.phase = .writing pastLoneSector .empty := rfl
  have hleft : pastLoneSector.sectorsLeft = 2 := rfl
  obtain ⟨hidle, hwriting⟩ := reachable_returns_idle writingLoneSector hlen
  obtain ⟨-, sectors, hle, first, rest, hsplit, hcount, hended⟩ := hwriting pastLoneSector .empty hphase
  rw [ByteArray.size_empty, Nat.zero_add] at hcount
  exact ⟨⟨hlen, hphase⟩, hidle, sectors, hleft ▸ hle, first, rest, hsplit, hcount, hended⟩

end AmstradCpc.Fdc
