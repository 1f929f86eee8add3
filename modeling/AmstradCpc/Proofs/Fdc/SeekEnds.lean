/-
Every seek that has ended is reported once. A program learns that a seek has ended by asking about
interrupts, and it is told of one unit at a time. What it can know of a run is what it has done and what
it was answered; from that, `Outstanding` says of which seeks it has not been told. The controller keeps
just these (`outstanding_iff`), one for each unit, so it answers for the lowest of them, forgets that one
only, and answers that there is none exactly if that is so.
-/
import AmstradCpc.Proofs.Fdc.Disks
import AmstradCpc.Proofs.Word

namespace AmstradCpc.Fdc

variable {f : Fdc} {a : Action} {unit : Nat} {st0 : UInt8}

/-! ## What a program knows -/

/-- The first status byte of a seek, as the drive is when the seek is carried out: bit 5 and the unit;
an abnormal end with an equipment check if there is no drive, and with a drive not ready if it is not. -/
def seekStatus (f : Fdc) (select : Select) : UInt8 :=
  0x20 + (select.bits &&& 3) +
    if !f.isAttached select.unit then 0x50 else if !f.isReady select.unit then 0x48 else 0

/-- The action carries out a seek on the unit, or has it recalibrated, and this is the status. -/
def Seeks (f : Fdc) (a : Action) (unit : Nat) (st0 : UInt8) : Prop :=
  ∃ select cylinder, f.completed a = some (.seek select cylinder) ∧ select.unit = unit ∧
    f.seekStatus select = st0

/-- The action asks about interrupts, and the answer names the unit. -/
def Senses (f : Fdc) (a : Action) (unit : Nat) : Prop :=
  f.completed a = some .senseInterrupt ∧
    ∃ st0 cylinder, (f.perform a).phase = .result [st0, cylinder] ∧ (st0 &&& 3).toNat = unit

/-- The action makes an end to what was known of a seek on the unit. -/
def Settles (f : Fdc) (a : Action) (unit : Nat) : Prop :=
  a = .reset ∨ (∃ st0, f.Seeks a unit st0) ∨ f.Senses a unit

/-- The last seek of a unit had this status, and since then no answer has named the unit and no reset
has come. -/
def Outstanding (actions : List Action) (unit : Nat) (st0 : UInt8) : Prop :=
  MarkedSince perform (fun f a => f.Seeks a unit st0) (fun f a => f.Settles a unit) initial actions

/-! ## What the controller keeps -/

/-- The status that the controller keeps for a unit. -/
def completion (f : Fdc) (unit : Nat) : Option UInt8 := f.seekEnds[unit]?.join

theorem completion_of_seekEnds {g : Fdc} (h : g.seekEnds = f.seekEnds) (unit : Nat) :
    g.completion unit = f.completion unit := by
  rw [completion, completion, h]

theorem completion_set {g : Fdc} {status : Option UInt8} (hunit : unit < 4)
    (h : g.seekEnds = f.seekEnds.setIfInBounds unit status) (u : Nat) :
    g.completion u = if u = unit then status else f.completion u := by
  rw [completion, completion, h, Vector.getElem?_setIfInBounds]
  by_cases hu : unit = u
  · subst hu
    simp [hunit]
  · simp [hu, Ne.symm hu]

theorem unit_lt_of_completion (h : f.completion unit = some st0) : unit < 4 := by
  refine Nat.lt_of_not_le fun hle => ?_
  simp [completion, Vector.getElem?_eq_none hle] at h

theorem seekEnds_modifyDrive (f : Fdc) (unit : Nat) (change : Drive → Drive) :
    (f.modifyDrive unit change).seekEnds = f.seekEnds := by
  rw [modifyDrive_eq]

theorem seekEnds_commitFormat (f : Fdc) (select : Select) (filler : UInt8) (received : List UInt8) :
    (f.commitFormat select filler received).seekEnds = f.seekEnds := seekEnds_modifyDrive ..

theorem seekEnds_commitSector (f : Fdc) (t : Transfer) (data : ByteArray) :
    (f.commitSector t data).seekEnds = f.seekEnds := by
  simp only [commitSector, beginWrite]
  split
  · rfl
  · split
    · exact seekEnds_modifyDrive ..
    · split <;> exact seekEnds_modifyDrive ..

theorem seek_eq (f : Fdc) (select : Select) (cylinder : UInt8) :
    f.seek select cylinder = { f.setCylinder select.unit cylinder with
      phase := .idle, seekEnds := f.seekEnds.setIfInBounds select.unit (some (f.seekStatus select)) } := by
  have hstatus : ∀ b : UInt8, seekEnd ||| b &&& 3 ||| (abnormal ||| equipmentCheck) = 0x20 + (b &&& 3) + 0x50 ∧
      seekEnd ||| b &&& 3 ||| (abnormal ||| notReady) = 0x20 + (b &&& 3) + 0x48 ∧
      seekEnd ||| b &&& 3 ||| 0 = 0x20 + (b &&& 3) + 0 := forall_byte (by decide +kernel)
  obtain ⟨hunattached, hunready, hfine⟩ := hstatus select.bits
  have hkept : (f.setCylinder select.unit cylinder).seekEnds = f.seekEnds := seekEnds_modifyDrive ..
  simp only [seek, seekStatus, hkept]
  split
  · rw [hunattached]
  · split
    · rw [hunready]
    · rw [hfine]

/-- A status names the unit. -/
theorem seekStatus_unit (f : Fdc) (select : Select) : (f.seekStatus select &&& 3).toNat = select.unit := by
  have hstatus : ∀ b : UInt8, (0x20 + (b &&& 3) + 0x50) &&& 3 = b &&& 3 ∧
      (0x20 + (b &&& 3) + 0x48) &&& 3 = b &&& 3 ∧ (0x20 + (b &&& 3) + 0) &&& 3 = b &&& 3 :=
    forall_byte (by decide +kernel)
  obtain ⟨hunattached, hunready, hfine⟩ := hstatus select.bits
  rw [seekStatus]
  split
  · rw [hunattached]; rfl
  · split
    · rw [hunready]; rfl
    · rw [hfine]; rfl

/-- The first that there is in a row of optional items, with its place. -/
theorem findSome?_zipIdx_cases {α : Type} : ∀ (row : List (Option α)) (n : Nat),
    (row.zipIdx n).findSome? (fun (item, i) => item.map (·, i)) = none ∧ (∀ i : Nat, row[i]?.join = none) ∨
      ∃ (i : Nat) (item : α), (row.zipIdx n).findSome? (fun (item, i) => item.map (·, i)) = some (item, n + i) ∧
        row[i]?.join = some item ∧ ∀ j < i, row[j]?.join = none
  | [], _ => .inl ⟨rfl, fun _ => rfl⟩
  | some item :: row, n => .inr ⟨0, item, rfl, rfl, fun j hj => absurd hj (Nat.not_lt_zero j)⟩
  | none :: row, n => by
    rcases findSome?_zipIdx_cases row (n + 1) with ⟨hnone, hall⟩ | ⟨i, item, hfirst, hi, hbefore⟩
    · refine .inl ⟨hnone, fun i => ?_⟩
      cases i with
      | zero => rfl
      | succ i => exact hall i
    · refine .inr ⟨i + 1, item, by rw [show n + (i + 1) = n + 1 + i by omega]; exact hfirst, hi, fun j hj => ?_⟩
      cases j with
      | zero => rfl
      | succ j => exact hbefore j (by omega)

/-- The answer to a question about interrupts: that there is none, or the lowest unit that has a status,
which is forgotten. -/
theorem senseInterrupt_cases (f : Fdc) :
    (∀ unit, f.completion unit = none) ∧ f.senseInterrupt = f.enterResult [0x80] ∨
      ∃ unit st0, f.completion unit = some st0 ∧ (∀ u < unit, f.completion u = none) ∧
        f.senseInterrupt = { f with
          phase := .result [st0, f.cylinder unit], seekEnds := f.seekEnds.setIfInBounds unit none } := by
  have hrow : ∀ i : Nat, f.seekEnds.toList[i]?.join = f.completion i := fun i => by
    rw [Vector.getElem?_toList, completion]
  simp only [senseInterrupt]
  rcases findSome?_zipIdx_cases f.seekEnds.toList 0 with ⟨hnone, hall⟩ | ⟨unit, st0, hfirst, hi, hbefore⟩
  · rw [hnone]
    exact .inl ⟨fun unit => (hrow unit).symm.trans (hall unit), rfl⟩
  · rw [hfirst, Nat.zero_add]
    exact .inr ⟨unit, st0, (hrow unit).symm.trans hi, fun u hu => (hrow u).symm.trans (hbefore u hu), rfl⟩

/-! ## One action -/

theorem seekEnds_run {request : Request} (f : Fdc) (hseek : ∀ select cylinder, request ≠ .seek select cylinder)
    (hsense : request ≠ .senseInterrupt) : (f.run request).seekEnds = f.seekEnds := by
  by_cases hformat : ∃ select sizeCode count filler, request = .format select sizeCode count filler
  · obtain ⟨select, sizeCode, count, filler, rfl⟩ := hformat
    simp only [run, formatTrack]
    split
    · split
      · exact seekEnds_commitFormat ..
      · rfl
    · rfl
  · have hformat' : ∀ select sizeCode count filler, request ≠ .format select sizeCode count filler :=
      fun select sizeCode count filler h => hformat ⟨select, sizeCode, count, filler, h⟩
    obtain ⟨p, n, hrun⟩ := exists_run_eq f hseek hformat' hsense
    rw [hrun]

/-- Nothing but a seek, a question about interrupts and a reset concerns the ends of seeks. -/
theorem seekEnds_perform (h : f.phase.Coherent) (hreset : a ≠ .reset)
    (hseek : ∀ select cylinder, f.completed a ≠ some (.seek select cylinder))
    (hsense : f.completed a ≠ some .senseInterrupt) : (f.perform a).seekEnds = f.seekEnds := by
  cases a with
  | write v =>
    have hw := write_written h v
    show (f.write v).seekEnds = f.seekEnds
    generalize f.write v = g at hw
    cases hw with
    | command hc =>
      exact seekEnds_run f (fun select cylinder he => hseek select cylinder (he ▸ hc)) fun he => hsense (he ▸ hc)
    | sector => exact seekEnds_commitSector { f with phase := .idle } _ _
    | track => exact seekEnds_commitFormat ..
    | commandByte | sectorByte | trackByte | lost => rfl
  | read =>
    obtain ⟨p, hread, -⟩ := exists_read_eq f
    show f.read.2.seekEnds = f.seekEnds
    rw [hread]
  | reset => exact absurd rfl hreset
  | setMotor | clock | detach => rfl
  | attach unit =>
    simp only [perform, attach]
    split <;> rfl
  | insert unit disk =>
    simp only [perform, insert]
    cases f.drive unit <;> rfl
  | eject | setCylinder => exact seekEnds_modifyDrive ..

/-- The statuses that are kept name their units. -/
def Named (f : Fdc) : Prop := ∀ unit st0, f.completion unit = some st0 → (st0 &&& 3).toNat = unit

theorem completion_seek (select : Select) (cylinder : UInt8) (u : Nat) :
    (f.seek select cylinder).completion u =
      if u = select.unit then some (f.seekStatus select) else f.completion u :=
  completion_set select.unit_lt (by rw [seek_eq]) u

theorem seeks_iff {select : Select} {cylinder : UInt8} (hc : f.completed a = some (.seek select cylinder)) :
    f.Seeks a unit st0 ↔ select.unit = unit ∧ f.seekStatus select = st0 := by
  constructor
  · rintro ⟨select', cylinder', hc', rfl, rfl⟩
    cases hc.symm.trans hc'
    exact ⟨rfl, rfl⟩
  · exact fun ⟨hunit, hst⟩ => ⟨select, cylinder, hc, hunit, hst⟩

theorem eq_of_lowest {m n : Nat} {st st' : UInt8} (hm : f.completion m = some st)
    (hbelow : ∀ u < m, f.completion u = none) (hn : f.completion n = some st')
    (hbelow' : ∀ u < n, f.completion u = none) : m = n := by
  rcases Nat.lt_trichotomy m n with hlt | heq | hgt
  · exact nomatch hm.symm.trans (hbelow' m hlt)
  · exact heq
  · exact nomatch hn.symm.trans (hbelow n hgt)

/-- The answer names the lowest unit for which there is a status. -/
theorem senses_iff (h : f.phase.Coherent) (hnamed : f.Named) (hc : f.completed a = some .senseInterrupt) :
    f.Senses a unit ↔ (∃ st0, f.completion unit = some st0) ∧ ∀ u < unit, f.completion u = none := by
  have hperform : f.perform a = f.senseInterrupt := perform_of_completed h hc
  rw [Senses, and_iff_right hc, hperform]
  rcases senseInterrupt_cases f with ⟨hnone, hanswer⟩ | ⟨lowest, st, hlowest, hbelow, hanswer⟩
  · rw [hanswer]
    exact iff_of_false (fun ⟨_, _, hphase, _⟩ => nomatch hphase)
      fun ⟨⟨_, hsome⟩, _⟩ => nomatch (hnone unit).symm.trans hsome
  · rw [hanswer]
    constructor
    · rintro ⟨st', cylinder, hphase, hunit⟩
      cases hphase
      obtain rfl : lowest = unit := (hnamed lowest st hlowest).symm.trans hunit
      exact ⟨⟨st, hlowest⟩, hbelow⟩
    · rintro ⟨⟨st', hst'⟩, hbelow'⟩
      obtain rfl := eq_of_lowest hlowest hbelow hst' hbelow'
      exact ⟨st, _, rfl, hnamed lowest st hlowest⟩

theorem completion_senseInterrupt (f : Fdc) (u : Nat) :
    f.senseInterrupt.completion u = none ∧ (∀ v < u, f.completion v = none) ∨
      f.senseInterrupt.completion u = f.completion u ∧ ∃ v < u, f.completion v ≠ none := by
  rcases senseInterrupt_cases f with ⟨hnone, hanswer⟩ | ⟨lowest, st, hlowest, hbelow, hanswer⟩
  · exact .inl ⟨by rw [hanswer]; exact hnone u, fun v _ => hnone v⟩
  · have hset := completion_set (f := f) (g := f.senseInterrupt) (unit_lt_of_completion hlowest)
      (by rw [hanswer]) u
    rcases Nat.lt_trichotomy u lowest with hlt | rfl | hgt
    · refine .inl ⟨by rw [hset, if_neg (Nat.ne_of_lt hlt), hbelow u hlt], fun v hv => hbelow v (by omega)⟩
    · exact .inl ⟨by rw [hset, if_pos rfl], hbelow⟩
    · exact .inr ⟨by rw [hset, if_neg (Nat.ne_of_gt hgt)], lowest, hgt, by simp [hlowest]⟩

/-- What is kept for a unit after an action: the status of a seek that it carries out, or what was kept
before if the action does not settle that. -/
theorem completion_perform (h : f.phase.Coherent) (hnamed : f.Named) (a : Action) (unit : Nat) (st0 : UInt8) :
    (f.perform a).completion unit = some st0 ↔
      f.Seeks a unit st0 ∨ ¬f.Settles a unit ∧ f.completion unit = some st0 := by
  by_cases hseek : ∃ select cylinder, f.completed a = some (.seek select cylinder)
  · obtain ⟨select, cylinder, hc⟩ := hseek
    have hsettles : f.Settles a unit ↔ select.unit = unit := by
      have hreset : a ≠ .reset := by
        rintro rfl
        cases hc
      have hsense : ¬f.Senses a unit := by simp [Senses, hc]
      simp [Settles, seeks_iff hc, hreset, hsense]
    rw [perform_of_completed h hc, run, completion_seek, seeks_iff hc, hsettles]
    by_cases hunit : unit = select.unit
    · simp [hunit]
    · simp [hunit, Ne.symm hunit]
  have hseeks : ∀ st, ¬f.Seeks a unit st := by
    rintro st ⟨select, cylinder, hc, -⟩
    exact hseek ⟨select, cylinder, hc⟩
  rw [or_iff_right (hseeks st0)]
  by_cases hsense : f.completed a = some .senseInterrupt
  · have hsettles : f.Settles a unit ↔ f.Senses a unit := by
      have hreset : a ≠ .reset := by
        rintro rfl
        cases hsense
      simp [Settles, hseeks, hreset]
    rw [perform_of_completed h hsense, run, hsettles, senses_iff h hnamed hsense]
    rcases completion_senseInterrupt f unit with ⟨hnone, hbelow⟩ | ⟨hkept, v, hv, hsome⟩
    · rw [hnone]
      exact iff_of_false (by simp) fun h => h.1 ⟨⟨st0, h.2⟩, hbelow⟩
    · rw [hkept, and_iff_right fun h => hsome (h.2 v hv)]
  by_cases hreset : a = .reset
  · subst hreset
    have hclear : f.reset.completion unit = none := by
      by_cases hunit : unit < 4 <;> simp [completion, reset, hunit]
    rw [perform, hclear]
    exact iff_of_false (by simp) fun h => h.1 (.inl rfl)
  · have hsettles : ¬f.Settles a unit := by
      rintro (hr | ⟨st, hs⟩ | hs)
      · exact hreset hr
      · exact hseeks st hs
      · exact hsense hs.1
    have hkept := seekEnds_perform h hreset (fun select cylinder hc => hseek ⟨select, cylinder, hc⟩) hsense
    rw [completion_of_seekEnds hkept, and_iff_right hsettles]

/-! ## Runs -/

theorem named_perform (h : f.phase.Coherent) (hnamed : f.Named) (a : Action) : (f.perform a).Named := by
  intro unit st0 hst0
  rcases (completion_perform h hnamed a unit st0).mp hst0 with ⟨select, _, -, rfl, rfl⟩ | ⟨-, hbefore⟩
  · exact seekStatus_unit f select
  · exact hnamed unit st0 hbefore

theorem completion_initial (unit : Nat) : initial.completion unit = none := by
  by_cases hunit : unit < 4 <;> simp [completion, initial, hunit]

theorem named_performAll (actions : List Action) : (initial.performAll actions).Named :=
  have hinitial : initial.Named := fun unit _ h => nomatch (completion_initial unit).symm.trans h
  (performAll_keeps (P := fun _ => True) (I := fun f => f.phase.Coherent ∧ f.Named)
    (fun _ a hf _ => ⟨coherent_perform hf.1 a, named_perform hf.1 hf.2 a⟩) (f := initial) actions
    ⟨trivial, hinitial⟩ fun a _ => a.brings_true).2

/-- The controller keeps the statuses of those seeks that a program has not been told of. -/
theorem outstanding_iff (actions : List Action) (unit : Nat) (st0 : UInt8) :
    Outstanding actions unit st0 ↔ (initial.performAll actions).completion unit = some st0 := by
  induction actions using List.reverseRecOn with
  | nil =>
    refine iff_of_false not_markedSince_nil fun h => ?_
    exact nomatch (completion_initial unit).symm.trans h
  | append_singleton actions a ih =>
    rw [performAll_append]
    refine markedSince_concat.trans (Iff.trans ?_
      (completion_perform (coherent_performAll actions) (named_performAll actions) a unit st0).symm)
    exact or_congr_right (and_congr_right fun _ => ih)

theorem interruptPending_iff (f : Fdc) : f.interruptPending = true ↔ ∃ unit st0, f.completion unit = some st0 := by
  rw [interruptPending, List.any_eq_true]
  constructor
  · rintro ⟨status, hmem, hsome⟩
    obtain ⟨unit, hunit⟩ := List.mem_iff_getElem?.mp hmem
    obtain ⟨st0, rfl⟩ := Option.isSome_iff_exists.mp hsome
    exact ⟨unit, st0, by rw [completion, ← Vector.getElem?_toList, hunit]; rfl⟩
  · rintro ⟨unit, st0, h⟩
    rw [completion, ← Vector.getElem?_toList, Option.join_eq_some_iff] at h
    exact ⟨some st0, List.mem_of_getElem? h, rfl⟩

/-- **Every seek that has ended is reported once.** After any run of actions the controller keeps the
statuses of the seeks that a program has not been told of, and an interrupt is pending exactly if there
are any. A question about interrupts is answered with the status and the cylinder of the lowest unit
that has one, which alone is forgotten, and with the byte 80 exactly if there is none. Apart from seeks,
such questions and resets no action changes what is kept. -/
theorem seeks_reported_once (actions : List Action) :
    let f := initial.performAll actions
    (∀ unit st0, f.completion unit = some st0 ↔ Outstanding actions unit st0) ∧
      (f.interruptPending = true ↔ ∃ unit st0, Outstanding actions unit st0) ∧
      (∀ a, f.completed a = some .senseInterrupt →
        (∀ unit st0, Outstanding actions unit st0 → (∀ u < unit, ∀ st, ¬Outstanding actions u st) →
          (f.perform a).phase = .result [st0, f.cylinder unit] ∧
            ∀ u, (f.perform a).completion u = if u = unit then none else f.completion u) ∧
        ((f.perform a).phase = .result [0x80] ↔ ∀ unit st0, ¬Outstanding actions unit st0)) ∧
      ∀ a, a ≠ .reset → f.completed a ≠ some .senseInterrupt →
        (∀ select cylinder, f.completed a ≠ some (.seek select cylinder)) →
        (f.perform a).seekEnds = f.seekEnds := by
  intro f
  have hco : f.phase.Coherent := coherent_performAll actions
  have hkept : ∀ unit st0, Outstanding actions unit st0 ↔ f.completion unit = some st0 := outstanding_iff actions
  refine ⟨fun unit st0 => (hkept unit st0).symm, ?_, fun a hc => ?_, fun a hreset hsense hseek =>
    seekEnds_perform hco hreset hseek hsense⟩
  · simp only [hkept]
    exact interruptPending_iff f
  simp only [hkept]
  rw [perform_of_completed hco hc, run]
  rcases senseInterrupt_cases f with ⟨hnone, hanswer⟩ | ⟨lowest, st, hlowest, hbelow, hanswer⟩
  · have hno : ∀ unit st0, f.completion unit ≠ some st0 := by simp [hnone]
    exact ⟨fun unit st0 h => absurd h (hno unit st0), iff_of_true (by rw [hanswer]; rfl) hno⟩
  · constructor
    · intro unit st0 hunit hbelow'
      obtain rfl := eq_of_lowest hlowest hbelow hunit fun u hu =>
        Option.eq_none_iff_forall_ne_some.mpr (hbelow' u hu)
      obtain rfl : st = st0 := Option.some.inj (hlowest.symm.trans hunit)
      exact ⟨by rw [hanswer], completion_set (unit_lt_of_completion hlowest) (by rw [hanswer])⟩
    · rw [hanswer]
      exact iff_of_false (by simp) fun hnone => hnone lowest st hlowest

/-- Unit 1 seeks and unit 0 is recalibrated, both without a drive; unit 0 is answered for first. -/
example : (initial.performAll ([0x0F, 1, 5, 0x07, 0, 0x08].map .write)).phase = .result [0x70, 0] := rfl

end AmstradCpc.Fdc
