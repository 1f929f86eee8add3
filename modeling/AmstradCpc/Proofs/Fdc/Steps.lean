/-
What one access to the data register does, said once for all that is proved of runs. A byte that is
written completes a command or the data of a sector or of a track, or it is part of one of these, or
it is lost (`Written`); a read changes nothing but the phase. From that follows where data comes in
for: while a phase takes data, the last command that was completed is one that asked for it, and no
reset has come since (`takesData_underWay`).
-/
import AmstradCpc.Proofs.Fdc.Handshake
import AmstradCpc.Proofs.History

namespace AmstradCpc.Fdc

variable {f g : Fdc} {a : Action} {request : Request}

/-! ## Accesses -/

/-- The command that an action completes, if it does. -/
def completed (f : Fdc) : Action → Option Request
  | .write v => f.phase.collected.bind fun received =>
    let bytes := received ++ [v]
    if bytes.length = (Command.ofByte (bytes.headD v)).length then some (.ofBytes bytes) else none
  | _ => none

theorem completed_of_not_collected (h : f.phase.collected = none) (a : Action) : f.completed a = none := by
  cases a with
  | write v => rw [completed, h, Option.bind_none]
  | _ => rfl

/-- A command that is completed is carried out. -/
theorem perform_of_completed (h : f.phase.Coherent) (hc : f.completed a = some request) :
    f.perform a = f.run request := by
  cases a with
  | write v =>
    obtain ⟨received, hcollected, hfull⟩ := Option.bind_eq_some_iff.mp hc
    obtain ⟨hlen, hrequest⟩ := Option.ite_none_right_eq_some.mp hfull
    rcases write_collected h hcollected v with ⟨hlt, -⟩ | ⟨-, hw, -⟩
    · exact absurd hlen (Nat.ne_of_lt hlt)
    · rw [perform, hw, Option.some.inj hrequest]
  | _ => cases hc

/-- What a byte that is written makes of the controller. -/
inductive Written (f : Fdc) (v : UInt8) : Fdc → Prop
  /-- It completes a command. -/
  | command {request : Request} (h : f.completed (.write v) = some request) : Written f v (f.run request)
  /-- It completes the data of a sector. -/
  | sector {t : Transfer} {received : ByteArray} (hp : f.phase = .writing t received)
      (hsize : received.size + 1 = max 1 t.sectorLength) :
      Written f v ({ f with phase := .idle }.commitSector t (received.push v))
  /-- It completes the sector IDs of a track. -/
  | track {select : Select} {count filler : UInt8} {received : List UInt8}
      (hp : f.phase = .formatting select count filler received) (hlen : received.length + 1 = 4 * count.toNat) :
      Written f v (f.commitFormat select filler (received ++ [v]))
  /-- The command that it is part of is short of bytes. -/
  | commandByte {received : List UInt8} (hc : f.phase.collected = some received)
      (h : f.completed (.write v) = none) : Written f v { f with phase := .command (received ++ [v]) }
  /-- The sector is short of bytes. -/
  | sectorByte {t : Transfer} {received : ByteArray} (hp : f.phase = .writing t received)
      (hsize : received.size + 1 < max 1 t.sectorLength) :
      Written f v { f with phase := .writing t (received.push v) }
  /-- The track is short of bytes. -/
  | trackByte {select : Select} {count filler : UInt8} {received : List UInt8}
      (hp : f.phase = .formatting select count filler received) (hlen : received.length + 1 < 4 * count.toNat) :
      Written f v { f with phase := .formatting select count filler (received ++ [v]) }
  /-- The data register is to be read. -/
  | lost (hr : f.wantsRead = true) : Written f v f

theorem write_written (h : f.phase.Coherent) (v : UInt8) : f.Written v (f.write v) := by
  cases hp : f.phase with
  | idle | command =>
    rcases write_collected h (by rw [hp, Phase.collected]) v with ⟨hlt, hw⟩ | ⟨heq, hw, -⟩
    · rw [hw]
      refine .commandByte (by rw [hp, Phase.collected]) ?_
      simp only [completed, hp, Phase.collected, Option.bind_some]
      exact if_neg (Nat.ne_of_lt hlt)
    · rw [hw]
      refine .command ?_
      simp only [completed, hp, Phase.collected, Option.bind_some]
      exact if_pos heq
  | reading | result =>
    have hr : f.wantsRead = true := by simp [wantsRead_eq, hp]
    rw [write_of_wantsRead hr]
    exact .lost hr
  | writing t received =>
    have hsize : (received.push v).size = received.size + 1 := by simp
    have hshort : received.size < max 1 t.sectorLength := by rwa [hp] at h
    simp only [write, hp]
    split
    · exact .sector hp (by omega)
    · exact .sectorByte hp (by omega)
  | formatting select count filler received =>
    have hlen : (received ++ [v]).length = received.length + 1 := by simp
    have hshort : received.length < 4 * count.toNat := by rwa [hp] at h
    simp only [write, hp]
    split
    · exact .track hp (by omega)
    · exact .trackByte hp (by omega)

/-- The phases that take data. -/
def Phase.TakesData : Phase → Prop
  | .writing .. | .formatting .. => True
  | .idle | .command _ | .reading .. | .result _ => False

/-- A read changes nothing but the phase, and not that while data is taken. -/
theorem exists_read_eq (f : Fdc) :
    ∃ p : Phase, f.read.2 = { f with phase := p } ∧ (p.TakesData → p = f.phase) := by
  cases hp : f.phase with
  | reading data next outcome =>
    rw [read_of_reading hp]
    split
    · exact ⟨.result outcome, rfl, False.elim⟩
    · exact ⟨.reading data (next + 1) outcome, rfl, False.elim⟩
  | result left =>
    rw [read, hp]
    rcases left with - | ⟨v, - | ⟨w, rest⟩⟩
    · exact ⟨.idle, rfl, False.elim⟩
    · exact ⟨.idle, rfl, False.elim⟩
    · exact ⟨.result (w :: rest), rfl, False.elim⟩
  | idle | command | writing | formatting =>
    rw [read_of_not_wantsRead (by simp [wantsRead_eq, hp])]
    exact ⟨f.phase, rfl, fun _ => hp⟩

theorem not_takesData_of_wantsRead (h : f.wantsRead = true) : ¬f.phase.TakesData := by
  rw [wantsRead_eq] at h
  cases hp : f.phase with
  | writing | formatting =>
    rw [hp] at h
    cases h
  | _ => exact id

/-- Commands that neither seek, nor format, nor ask about seeks, only give an answer or wait for data.
They change nothing but the phase, and which sector passes next. -/
theorem exists_run_eq (f : Fdc) (hseek : ∀ select cylinder, request ≠ .seek select cylinder)
    (hformat : ∀ select sizeCode count filler, request ≠ .format select sizeCode count filler)
    (hsense : request ≠ .senseInterrupt) :
    ∃ (p : Phase) (n : UInt64), f.run request = { f with phase := p, nextId := n } := by
  cases request with
  | specify | senseDrive | version | invalid => exact ⟨_, _, rfl⟩
  | seek select cylinder => exact absurd rfl (hseek select cylinder)
  | senseInterrupt => exact absurd rfl hsense
  | read t =>
    simp only [run, readSectors, startRead]
    split
    · split <;> exact ⟨_, _, rfl⟩
    · exact ⟨_, _, rfl⟩
  | readTrack t =>
    simp only [run, readTrack, startRead]
    split
    · split
      · exact ⟨_, _, rfl⟩
      · split <;> exact ⟨_, _, rfl⟩
    · exact ⟨_, _, rfl⟩
  | write t =>
    simp only [run, writeSectors, beginWrite]
    split
    · split <;> exact ⟨_, _, rfl⟩
    · exact ⟨_, _, rfl⟩
  | readId select =>
    simp only [run, readId]
    split
    · split <;> exact ⟨_, _, rfl⟩
    · exact ⟨_, _, rfl⟩
  | format select sizeCode count filler => exact absurd rfl (hformat select sizeCode count filler)

/-! ## The command that data comes in for -/

/-- The phase takes data for this command. The record of a transfer moves on from sector to sector. -/
def Phase.Serves : Phase → Request → Prop
  | .writing t _, .write t' => ∃ record, t = { t' with record }
  | .formatting select count filler _, .format select' _ count' filler' =>
    select = select' ∧ count = count' ∧ filler = filler'
  | _, _ => False

/-- The last command that was completed is this one, and no reset has come after it. -/
def UnderWay (actions : List Action) (request : Request) : Prop :=
  MarkedSince perform (fun f a => f.completed a = some request)
    (fun f a => a = .reset ∨ (f.completed a).isSome = true) initial actions

theorem not_takesData_startRead (f : Fdc) (data : ByteArray) (outcome : List UInt8) :
    ¬(f.startRead data outcome).phase.TakesData := by
  unfold startRead
  split <;> exact id

theorem serves_beginWrite (f : Fdc) (t : Transfer) (record : UInt8) :
    (f.beginWrite { t with record }).phase.TakesData →
      (f.beginWrite { t with record }).phase.Serves (.write t) := by
  simp only [beginWrite]
  split
  · exact fun _ => ⟨record, rfl⟩
  · exact False.elim

/-- A command that leads to a phase which takes data is the one that the data comes in for. -/
theorem serves_run (f : Fdc) (request : Request) :
    (f.run request).phase.TakesData → (f.run request).phase.Serves request := by
  cases request with
  | specify | senseDrive | seek | version | invalid => exact False.elim
  | senseInterrupt =>
    simp only [run, senseInterrupt]
    split <;> exact False.elim
  | read t =>
    simp only [run, readSectors]
    split
    · exact fun h => absurd h (not_takesData_startRead _ _ _)
    · exact False.elim
  | readTrack t =>
    simp only [run, readTrack]
    split
    · split
      · exact False.elim
      · exact fun h => absurd h (not_takesData_startRead _ _ _)
    · exact False.elim
  | readId select =>
    simp only [run, readId]
    split
    · split <;> exact False.elim
    · exact False.elim
  | write t =>
    simp only [run, writeSectors]
    split
    · exact serves_beginWrite f t t.record
    · exact False.elim
  | format select sizeCode count filler =>
    simp only [run, formatTrack]
    split
    · split
      · exact False.elim
      · exact fun _ => ⟨rfl, rfl, rfl⟩
    · exact False.elim

theorem serves_commitSector (f : Fdc) (t : Transfer) (record : UInt8) (data : ByteArray) :
    (f.commitSector { t with record } data).phase.TakesData →
      (f.commitSector { t with record } data).phase.Serves (.write t) := by
  simp only [commitSector]
  split
  · exact False.elim
  · split
    · exact False.elim
    · exact serves_beginWrite _ t (record + 1)

theorem serves_written {v : UInt8} (hw : f.Written v g) (hdata : g.phase.TakesData) :
    (∃ request, f.completed (.write v) = some request ∧ g.phase.Serves request) ∨
      f.completed (.write v) = none ∧ f.phase.TakesData ∧
        ∀ request, f.phase.Serves request → g.phase.Serves request := by
  cases hw with
  | command hc => exact .inl ⟨_, hc, serves_run _ _ hdata⟩
  | sector hp hsize =>
    refine .inr ⟨completed_of_not_collected (by rw [hp, Phase.collected]) _, hp ▸ trivial, ?_⟩
    rw [hp]
    intro request hserves
    cases request with
    | write t' =>
      obtain ⟨record, rfl⟩ := hserves
      exact serves_commitSector _ t' record _ hdata
    | _ => exact hserves.elim
  | track => exact hdata.elim
  | commandByte => exact hdata.elim
  | sectorByte hp | trackByte hp =>
    refine .inr ⟨completed_of_not_collected (by rw [hp, Phase.collected]) _, hp ▸ trivial, ?_⟩
    rw [hp]
    exact fun request => by cases request <;> exact id
  | lost hr => exact absurd hdata (not_takesData_of_wantsRead hr)

/-- A phase that takes data was led to by the command that it serves, or by a phase that served the
same. -/
theorem serves_perform (h : f.phase.Coherent) (hdata : (f.perform a).phase.TakesData) :
    (∃ request, f.completed a = some request ∧ (f.perform a).phase.Serves request) ∨
      a ≠ .reset ∧ f.completed a = none ∧ f.phase.TakesData ∧
        ∀ request, f.phase.Serves request → (f.perform a).phase.Serves request := by
  cases a with
  | write v => exact (serves_written (write_written h v) hdata).imp_right fun hkeeps => ⟨nofun, hkeeps⟩
  | read =>
    obtain ⟨p, hread, hp⟩ := exists_read_eq f
    have hperform : (f.perform .read).phase = p := congrArg Fdc.phase hread
    rw [hperform] at hdata ⊢
    have hsame := hp hdata
    rw [hsame] at hdata ⊢
    exact .inr ⟨nofun, rfl, hdata, fun _ => id⟩
  | reset => exact hdata.elim
  | setMotor | clock | attach | detach | insert | eject | setCylinder =>
    rw [phase_perform (by simp) (by simp) (by simp)] at hdata ⊢
    exact .inr ⟨nofun, rfl, hdata, fun _ => id⟩

/-- **Data comes in for the last command.** After any run of actions, if a phase takes data, the last
command that was completed is the one that it serves, and no reset has come after that. -/
theorem takesData_underWay (actions : List Action) (hdata : (initial.performAll actions).phase.TakesData) :
    ∃ request, UnderWay actions request ∧ (initial.performAll actions).phase.Serves request := by
  induction actions using List.reverseRecOn with
  | nil => exact hdata.elim
  | append_singleton actions a ih =>
    rw [performAll_append] at hdata ⊢
    rcases serves_perform (coherent_performAll actions) hdata with
      ⟨request, hc, hserves⟩ | ⟨hreset, hnone, htakes, hkeeps⟩
    · exact ⟨request, markedSince_concat.mpr (.inl hc), hserves⟩
    · obtain ⟨request, hunder, hserves⟩ := ih htakes
      refine ⟨request, markedSince_concat.mpr (.inr ⟨?_, hunder⟩), hkeeps request hserves⟩
      rintro (ha | hc)
      · exact hreset ha
      · have hnone' : (actions.foldl perform initial).completed a = none := hnone
        rw [hnone'] at hc
        cases hc

end AmstradCpc.Fdc
