/-
What a call that fails leaves behind. It fails because the files refuse something, because
a file is not that of a disk, or because there is no such drive; `Unmoved` names the two
reasons why a drive does not take another disk. From that follows that the drives stay as
they are, with the controller and all notices, and what becomes of the files. The file of a
new disk is written before it is known if the disk can be put in, so it may have been
written for nothing; `call_error_spares_iff` says that no other file is lost, and when this
one is.
-/
import AmstradCpc.Proofs.Drives.Unsaved
import AmstradCpc.Proofs.Snapshot.RoundTrip

namespace AmstradCpc.Drives

open Disk (Image)

open FileTask

open Snapshot (TwoDrives)

/-! ## How things can stand -/

/-- How the drives can stand after any calls since power-on, whatever was answered, and
whatever else was done to the controller between them, as long as it keeps its drives. -/
inductive Reached : Drives → Prop
  | start : Reached initial
  | call {s s' : Drives × Journal} {call : Call} {events : List FileEvent} {result : Except Error Unit}
      (h : Reached s.1) (hcall : call.task.Runs s events result s') : Reached s'.1
  | action {d : Drives} (h : Reached d) (a : Fdc.Action) (ha : ¬a.Wires) :
      Reached { d with controller := d.controller.perform a }

theorem Made.reached {history : List Step} {s : Drives × Journal} (h : Made history s) : Reached s.1 := by
  induction h with
  | start => exact .start
  | call step _ hcall ih => exact .call ih hcall

theorem Reached.twoDrives {d : Drives} (h : Reached d) : TwoDrives d.controller := by
  induction h with
  | start => exact Snapshot.twoDrives_ofConfig {} { lower := .zeroed, upper := .zeroed }
  | call _ hcall ih =>
    obtain ⟨actions, hquiet, hc⟩ := call_actions hcall
    intro unit
    rw [hc, Fdc.isAttached_performAll _ actions hquiet]
    exact ih unit
  | action _ a ha ih =>
    intro unit
    rw [Fdc.isAttached_perform _ ha]
    exact ih unit

/-! ## Drives that are not there -/

variable {s s' : Drives × Journal} {events : List FileEvent} {result : Except Error Unit}
  {drive : Nat} {path : String} {image : Image} {e : Error}

theorem unsaved?_eq_none {d : Drives} (h : driveCount ≤ drive) : d.unsaved? drive = none := by
  rw [unsaved?, file?_eq_none h]

theorem drive_eq_none {d : Drives} (hd : TwoDrives d.controller) (h : driveCount ≤ drive) :
    d.controller.drive drive = none :=
  Option.not_isSome_iff_eq_none.mp fun hsome => Nat.not_lt.mpr h ((hd drive).mp hsome)

theorem eject_eq_self {d : Drives} (hd : TwoDrives d.controller) (h : driveCount ≤ drive) :
    d.eject drive = d := by
  have hcontroller : d.controller.eject drive = d.controller := by
    rw [Fdc.eject, Fdc.modifyDrive, drive_eq_none hd h]
  have hfiles : d.files.setIfInBounds drive none = d.files := Vector.setIfInBounds_eq_of_size_le h
  rw [eject, hcontroller, hfiles]

/-- Taking the disk out of no drive does nothing, and succeeds. -/
theorem remove_nowhere (hd : TwoDrives s.1.controller) (h : driveCount ≤ drive)
    (hrun : (remove drive).Runs s events result s') : events = [] ∧ s' = s := by
  have hdisk : s.1.controller.disk drive = none := by
    rw [Fdc.disk, drive_eq_none hd h]
    rfl
  have hsave : ∀ {events r s'}, (save drive).Runs s events r s' → events = [] ∧ r = .ok () ∧ s' = s := by
    intro events r s' hsave
    have hsave := runs_part_bind_iff.mp hsave
    rw [unsaved?_eq_none h] at hsave
    exact runs_pure_iff.mp hsave
  rcases runs_bind_iff.mp hrun with ⟨_, rfl, hfirst⟩ | ⟨⟨⟩, s₁, first, rest, rfl, hfirst, hrest⟩
  · cases (hsave hfirst).2.1
  · obtain ⟨rfl, -, rfl⟩ := hsave hfirst
    have hset := runs_part_bind_iff.mp hrest
    have hnotice := runs_setPart_bind_iff.mp hset
    rw [hdisk, eject_eq_self hd h] at hnotice
    obtain ⟨rfl, -, rfl⟩ := runs_pure_iff.mp hnotice
    exact ⟨rfl, rfl⟩

/-- There is room for a disk in every drive. -/
theorem isSome_mount? {d : Drives} (hd : TwoDrives d.controller) (h : drive < driveCount) (path : String)
    (image : Image) : ((d.eject drive).mount? drive path image).isSome = true := by
  have hattached : ((d.controller.eject drive).drive drive).isSome = true :=
    (Fdc.isAttached_modifyDrive ..).trans ((hd drive).mpr h)
  rw [mount?, if_pos h, Option.isSome_map, Fdc.insert, Option.isSome_map]
  exact hattached

/-! ## Calls that fail -/

/-- Why no disk can be put into a drive, or taken out of it, with what was asked of the
files: there is no such drive, or the disk that is there could not be saved. -/
inductive Unmoved (d : Drives) (drive : Nat) : List FileEvent → Prop
  | nowhere (h : driveCount ≤ drive) : Unmoved d drive []
  | unsaved {path : String} {image : Image} (h : d.unsaved? drive = some (path, image))
      (problem : FileProblem) : Unmoved d drive [.write path image.toBytes (.error problem)]

theorem remove_error (h : (remove drive).Runs s events (.error e) s') :
    s' = s ∧ Unmoved s.1 drive events := by
  obtain ⟨s₁, hsave, ⟨-, rfl⟩ | ⟨hok, -⟩⟩ := remove_runs_save h
  · have hremoval := remove_runs h
    rw [hremoval.eq_of_error] at hremoval
    refine ⟨eq_of_save_error hsave, ?_⟩
    cases hremoval with
    | refused hu problem => exact .unsaved hu problem
  · cases hok

theorem exchange_error (hd : TwoDrives s.1.controller)
    (h : (exchange drive path image).Runs s events (.error e) s') : s' = s ∧ Unmoved s.1 drive events := by
  rcases runs_bind_iff.mp h with ⟨_, -, hremove⟩ | ⟨⟨⟩, s₁, first, rest, rfl, hremove, hrest⟩
  · exact remove_error hremove
  · have hmount := runs_part_bind_iff.mp hrest
    split at hmount
    · cases (runs_setPart_iff.mp hmount).2.1
    · next hnone =>
      obtain ⟨rfl, -, rfl⟩ := runs_throw_iff.mp hmount
      rw [(remove_runs hremove).saved_of_ok.2] at hnone
      have hnowhere : driveCount ≤ drive := Nat.not_lt.mp fun hlt => by
        have hroom := isSome_mount? hd hlt path image
        rw [hnone] at hroom
        cases hroom
      obtain ⟨rfl, rfl⟩ := remove_nowhere hd hnowhere hremove
      exact ⟨rfl, .nowhere hnowhere⟩

/-- What a failed call has asked of the files. -/
inductive Failed (d : Drives) : Call → List FileEvent → Prop
  | asked {call : Call} {events : List FileEvent}
      (h : ∀ path bytes, .write path bytes (.ok ()) ∉ events) : Failed d call events
  | written {drive : Nat} {path : String} {format : Disk.Format} {events : List FileEvent}
      (h : Unmoved d drive events) :
      Failed d (.create drive path format) (.write path (Image.formatted format).toBytes (.ok ()) :: events)

theorem Unmoved.not_granted {d : Drives} (h : Unmoved d drive events) (path : String) (bytes : ByteArray) :
    .write path bytes (.ok ()) ∉ events := by
  cases h with
  | nowhere => simp
  | unsaved => simp

theorem Exchanged.unmoved {s₁ : Drives × Journal} (hd : TwoDrives s.1.controller)
    (h : Exchanged s drive path image events (.error e) s₁ s') : s' = s ∧ Unmoved s.1 drive events := by
  rw [h.error e rfl]
  exact exchange_error hd h.runs

theorem insert_error (hd : TwoDrives s.1.controller) (h : (insert drive path).Runs s events (.error e) s') :
    s' = s ∧ ∀ path bytes, .write path bytes (.ok ()) ∉ events := by
  by_cases hpath : path = ""
  · subst hpath
    have hremove : (remove drive).Runs s events (.error e) s' := h
    exact (remove_error hremove).imp_right Unmoved.not_granted
  · obtain ⟨answer, rest, rfl, ⟨-, rfl, -, rfl⟩ | ⟨image, s₁, -, hexchanged⟩⟩ := insert_runs_cases hpath h
    · exact ⟨rfl, by simp⟩
    · obtain ⟨rfl, hunmoved⟩ := hexchanged.unmoved hd
      refine ⟨rfl, fun path bytes hmem => ?_⟩
      rw [List.mem_cons] at hmem
      exact hunmoved.not_granted path bytes (hmem.resolve_left nofun)

theorem create_error {format : Disk.Format} (hd : TwoDrives s.1.controller)
    (h : (create drive path format).Runs s events (.error e) s') :
    s' = s ∧ Failed s.1 (.create drive path format) events := by
  obtain ⟨answer, rest, rfl, ⟨problem, -, rfl, rfl, -, rfl⟩ | ⟨s₁, rfl, hexchanged⟩⟩ := create_runs_cases h
  · exact ⟨rfl, .asked (by simp)⟩
  · exact (hexchanged.unmoved hd).imp_right .written

/-- Only taking all disks out can fail halfway. -/
theorem call_error {call : Call} (hcall : call ≠ .flush) (hd : TwoDrives s.1.controller)
    (h : call.task.Runs s events (.error e) s') : s' = s ∧ Failed s.1 call events := by
  cases call with
  | insert target path => exact (insert_error hd h).imp_right .asked
  | remove target => exact (remove_error h).imp_right fun hunmoved => .asked hunmoved.not_granted
  | create target path format => exact create_error hd h
  | flush => exact absurd rfl hcall
  | reset | clock | setMotor | read | write =>
    rw [Call.task] at h
    cases (runs_modifyPart_iff.mp h).2.1

/-! ## What becomes of the files -/

/-- What the files hold, by their paths. -/
abbrev Contents : Type := String → Option ByteArray

/-- Files that were asked for this, with these answers, and what they hold then. Reading may
fail, and a write that fails may leave anything in the file. -/
inductive FilesAfter : Contents → List FileEvent → Contents → Prop
  | done (files : Contents) : FilesAfter files [] files
  | read {files files' : Contents} {path : String} {answer : Except FileProblem ByteArray}
      {events : List FileEvent} (hanswer : ∀ bytes, answer = .ok bytes → files path = some bytes)
      (h : FilesAfter files events files') : FilesAfter files (.read path answer :: events) files'
  | granted {files files' : Contents} {path : String} {bytes : ByteArray} {events : List FileEvent}
      (h : FilesAfter (Function.update files path (some bytes)) events files') :
      FilesAfter files (.write path bytes (.ok ()) :: events) files'
  | refused {files files' : Contents} {path : String} {bytes : ByteArray} {problem : FileProblem}
      (left : Option ByteArray) {events : List FileEvent}
      (h : FilesAfter (Function.update files path left) events files') :
      FilesAfter files (.write path bytes (.error problem) :: events) files'

/-- A write to the file has failed. -/
def Refused (events : List FileEvent) (path : String) : Prop :=
  ∃ bytes problem, .write path bytes (.error problem) ∈ events

theorem refused_cons_granted {bytes : ByteArray} {target : String} :
    Refused (.write target bytes (.ok ()) :: events) path ↔ Refused events path := by
  simp [Refused]

variable {files files' : Contents}

theorem FilesAfter.eq_of_not_written (h : FilesAfter files events files')
    (hwrite : ∀ bytes answer, .write path bytes answer ∉ events) : files' path = files path := by
  induction h with
  | done => rfl
  | read _ _ ih => exact ih fun bytes answer hmem => hwrite bytes answer (.tail _ hmem)
  | @granted _ _ written _ _ _ ih | @refused _ _ written _ _ _ _ _ ih =>
    have hne : path ≠ written := by
      rintro rfl
      exact hwrite _ _ List.mem_cons_self
    rw [ih fun bytes answer hmem => hwrite bytes answer (.tail _ hmem), Function.update_of_ne hne]

/-- As long as no write succeeds, a file changes only in a write that fails. -/
theorem FilesAfter.refused_of_ne (h : FilesAfter files events files')
    (hasked : ∀ path bytes, .write path bytes (.ok ()) ∉ events) (hne : files' path ≠ files path) :
    Refused events path := by
  by_contra hrefused
  refine hne (h.eq_of_not_written fun bytes answer hmem => ?_)
  cases answer with
  | ok => exact hasked path bytes hmem
  | error problem => exact hrefused ⟨bytes, problem, hmem⟩

/-- The file of a new disk was written over something else, and is not the one of the disk
that could not be saved. -/
def Call.Spoils (call : Call) (d : Drives) (files : Contents) (events : List FileEvent) : Prop :=
  match call with
  | .create drive path format =>
    let blank := (Image.formatted format).toBytes
    .write path blank (.ok ()) ∈ events ∧ files path ≠ some blank ∧
      ∀ image, d.unsaved? drive ≠ some (path, image)
  | _ => False

/-- The disk that could not be saved is that of the file. -/
theorem Unmoved.refused_iff {d : Drives} (h : Unmoved d drive events) :
    Refused events path ↔ ∃ image, d.unsaved? drive = some (path, image) := by
  cases h with
  | nowhere h => simp [Refused, unsaved?_eq_none h]
  | unsaved hu problem => simp [Refused, hu, eq_comm]

theorem Failed.spares_iff {d : Drives} {call : Call} (h : Failed d call events)
    (hfiles : FilesAfter files events files') :
    (∀ path, files' path ≠ files path → Refused events path) ↔ ¬call.Spoils d files events := by
  cases h with
  | asked hasked =>
    refine iff_of_true (fun path => hfiles.refused_of_ne hasked) fun hspoils => ?_
    cases call with
    | create => exact hasked _ _ hspoils.1
    | insert | remove | flush | reset | clock | setMotor | read | write => exact hspoils
  | @written drive target format rest hunmoved =>
    cases hfiles with
    | granted hrest =>
    -- What the files hold once there is the file of the new disk changes as `rest` says.
    have hrefused : ∀ {path}, files' path ≠ Function.update files target
        (some (Image.formatted format).toBytes) path → Refused rest path :=
      hrest.refused_of_ne hunmoved.not_granted
    constructor
    · rintro hspared ⟨-, hother, hunsaved⟩
      have hgranted : ¬Refused rest target := fun h => (hunmoved.refused_iff.mp h).elim hunsaved
      have hblank : files' target = some (Image.formatted format).toBytes := by
        by_contra hne
        exact hgranted (hrefused (by rwa [Function.update_self]))
      exact hgranted (refused_cons_granted.mp (hspared target (by rw [hblank]; exact hother.symm)))
    · intro hspoils path hchanged
      rw [refused_cons_granted]
      by_cases hpath : path = target
      · subst hpath
        by_cases hsame : files path = some (Image.formatted format).toBytes
        · exact hrefused (by rwa [Function.update_self, ← hsame])
        · by_contra hgranted
          exact hspoils ⟨List.mem_cons_self, hsame, fun image hu =>
            hgranted (hunmoved.refused_iff.mpr ⟨image, hu⟩)⟩
      · exact hrefused (by rwa [Function.update_of_ne hpath])

/-! ## What a failed call leaves behind -/

/-- **A call that fails leaves everything as it was, but for the file of a new disk.** Whatever has happened
since power-on, whichever drive and path are asked for and whichever reads and writes fail: a failed call, if it
is not the one for all drives, leaves the disks, their files' names, the marks of unsaved changes and all else in
drives and controller as they were. No file has changed but those a write to which has failed, unless the call
was for a new disk: its file is written first, and stays written if then the drive does not exist or the disk
that is in it cannot be saved to another file. -/
theorem call_error_spares_iff (hs : Reached s.1) {call : Call} (hcall : call ≠ .flush)
    (hrun : call.task.Runs s events (.error e) s') :
    s' = s ∧ ∀ files files', FilesAfter files events files' →
      ((∀ path, files' path ≠ files path → Refused events path) ↔ ¬call.Spoils s.1 files events) := by
  obtain ⟨hsame, hfailed⟩ := call_error hcall hs.twoDrives hrun
  exact ⟨hsame, fun files files' hfiles => hfailed.spares_iff hfiles⟩

theorem insert_refused {old : String} {oldImage : Image} {bytes : ByteArray} (hpath : path ≠ "")
    (himage : Image.parse bytes = .ok image) (h : s.1.unsaved? drive = some (old, oldImage))
    (problem : FileProblem) :
    (insert drive path).Runs s [.read path (.ok bytes), .write old oldImage.toBytes (.error problem)]
      (.error (.file old problem)) s := by
  have hempty : path.isEmpty = false := String.isEmpty_eq_false_iff.mpr hpath
  have hremove : (remove drive).Runs s [.write old oldImage.toBytes (.error problem)]
      (.error (.file old problem)) s := remove_refused h problem
  simp only [insert, hempty, Bool.false_eq_true, if_false]
  refine runs_bind_iff.mpr (.inr ⟨bytes, s, [_], [_], rfl, runs_readFile_iff.mpr ⟨.ok bytes, rfl, rfl, rfl⟩, ?_⟩)
  refine runs_bind_iff.mpr (.inr ⟨image, s, [], [_], rfl, runs_require_iff.mpr ⟨rfl, ?_, rfl⟩, ?_⟩)
  · rw [himage]
    rfl
  · refine runs_bind_iff.mpr (.inl ⟨_, rfl, ?_⟩)
    exact runs_bind_iff.mpr (.inl ⟨_, rfl, hremove⟩)

/-- Another disk cannot take the place of one that cannot be saved. -/
theorem insert_error_spares : ∃ journal image e s', Reached reformatted ∧
    reformatted.unsaved? 0 = some ("a", image) ∧
    let events : List FileEvent :=
      [.read "b" (.ok bareDisk.toBytes), .write "a" image.toBytes (.error .permissionDenied)]
    Call.insert 0 "b" ≠ .flush ∧ (Call.insert 0 "b").task.Runs (reformatted, journal) events (.error e) s' ∧
      s' = (reformatted, journal) ∧
      ∀ files files', FilesAfter files events files' →
        ∀ path, files' path ≠ files path → Refused events path := by
  obtain ⟨history, journal, hmade⟩ := made_reformatted
  have hunsaved : (reformatted.unsaved? 0).map (·.1) = some "a" := rfl
  obtain ⟨⟨_, image⟩, hunsaved, rfl⟩ := Option.map_eq_some_iff.mp hunsaved
  have hreached : Reached reformatted := hmade.reached
  have hflush : Call.insert 0 "b" ≠ .flush := by simp
  have hrun : (Call.insert 0 "b").task.Runs (reformatted, journal)
      [.read "b" (.ok bareDisk.toBytes), .write "a" image.toBytes (.error .permissionDenied)]
      (.error (.file "a" .permissionDenied)) (reformatted, journal) :=
    insert_refused (by decide) parse_toBytes_bareDisk hunsaved .permissionDenied
  obtain ⟨hsame, hfiles⟩ := call_error_spares_iff (s := (reformatted, journal)) hreached hflush hrun
  exact ⟨journal, image, _, _, hreached, hunsaved, hflush, hrun, hsame,
    fun files files' hafter => (hfiles files files' hafter).mpr nofun⟩

/-- A new disk for a third drive, which there is not, is written over the file that was there,
and no write has failed. -/
theorem create_error_not_spared : ∃ s' files', Reached initial ∧
    let files : Contents := fun _ => some .empty
    let events : List FileEvent := [.write "a" (Image.formatted .data).toBytes (.ok ())]
    (Call.create 2 "a" .data).task.Runs (initial, #[]) events (.error (.disk "a" (.noDrive 2))) s' ∧
      FilesAfter files events files' ∧ files' "a" ≠ files "a" ∧ ¬Refused events "a" := by
  refine ⟨(initial, #[]), _, .start, ⟨.ok (), [], rfl, rfl, rfl⟩, .granted (.done _), ?_, ?_⟩
  · rw [Function.update_self, ne_eq, Option.some.injEq]
    intro hempty
    have hblank : Image.parse .empty = .ok (.formatted .data) := hempty ▸ Image.parse_toBytes_formatted .data
    cases hblank
  · rw [refused_cons_granted]
    rintro ⟨bytes, problem, hmem⟩
    cases hmem

end AmstradCpc.Drives
