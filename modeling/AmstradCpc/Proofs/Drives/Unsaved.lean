/-
That no change to a disk is lost while the drives work with it. A history is a row of
calls, each with what it asked of the files and was answered; any write may fail. What a
call does to a drive is one of four things (`Fate`), and from that follows what all
histories keep: a drive has a file if and only if it has a disk, and a disk whose changes
are not in its file is marked so. `no_change_dropped` says what this comes to for the
disk itself, and what a failed write does.
-/
import AmstradCpc.Proofs.Drives.Mounting
import AmstradCpc.Proofs.Storage.Dialogue

namespace AmstradCpc.Drives

open Disk (Image)

open FileTask

/-! ## Calls -/

/-- One call from the rest of the machine. -/
inductive Call where
  | insert (drive : Nat) (path : String)
  | remove (drive : Nat)
  | create (drive : Nat) (path : String) (format : Disk.Format)
  | flush
  | reset
  | clock
  | setMotor (on : Bool)
  /-- The data register is read. -/
  | read
  /-- A byte is written to the data register. -/
  | write (v : UInt8)

def Call.task {m : Type → Type} [Monad m] [MonadFiles m] : Call → FileTask Drives m Unit
  | .insert drive path => Drives.insert drive path
  | .remove drive => Drives.remove drive
  | .create drive path format => Drives.create drive path format
  | .flush => Drives.flush
  | .reset => modifyPart Drives.reset
  | .clock => modifyPart Drives.clock
  | .setMotor on => modifyPart (Drives.setMotor · on)
  | .read => modifyPart fun d => { d with controller := d.controller.read.2 }
  | .write v => modifyPart fun d => { d with controller := d.controller.write v }

/-- A call that has put another disk into a drive. -/
def Call.Mounts (call : Call) (result : Except Error Unit) (drive : Nat) : Prop :=
  result = .ok () ∧ match call with
    | .insert d path => d = drive ∧ path ≠ ""
    | .create d _ _ => d = drive
    | _ => False

/-- What a call has asked of the files for one drive. Taking all disks out begins with the
first drive, for which it asks once if the disk there has unsaved changes. -/
def Call.share (call : Call) (d : Drives) (events : List FileEvent) (drive : Nat) : List FileEvent :=
  match call with
  | .insert target _ | .remove target | .create target _ _ => if target = drive then events else []
  | .flush =>
    let first := if (d.unsaved? 0).isSome then 1 else 0
    if drive = 0 then events.take first else if drive = 1 then events.drop first else []
  | .reset | .clock | .setMotor _ | .read | .write _ => []

/-- A call that has been made. -/
structure Step where
  call : Call
  events : List FileEvent
  result : Except Error Unit
  after : Drives × Journal

/-- Calls that have been made since power-on, the last one first, and how things stand
after them. -/
inductive Made : List Step → Drives × Journal → Prop
  | start : Made [] (initial, #[])
  | call {history : List Step} {s : Drives × Journal} (step : Step) (h : Made history s)
      (hcall : step.call.task.Runs s step.events step.result step.after) :
      Made (step :: history) step.after

/-- The drive has held this very disk ever since one was put into it. -/
def UnchangedSinceMount (drive : Nat) (image : Image) : List Step → Prop
  | [] => False
  | step :: earlier => step.after.1.controller.disk drive = some image ∧
      (step.call.Mounts step.result drive ∨ UnchangedSinceMount drive image earlier)

/-! ## The drives one by one -/

/-- The file and the disk of a drive. -/
def held (d : Drives) (drive : Nat) : Option String × Option Image :=
  (d.file? drive, d.controller.disk drive)

theorem file?_setIfInBounds (d : Drives) (target drive : Nat) (file : Option String) :
    ({ d with files := d.files.setIfInBounds target file } : Drives).file? drive =
      if target = drive ∧ drive < driveCount then file else d.file? drive := by
  simp only [file?, Vector.getElem?_setIfInBounds]
  by_cases ht : target = drive
  · subst ht
    by_cases hlt : target < driveCount <;> simp [hlt]
  · simp [ht]

theorem file?_eq_none {d : Drives} {drive : Nat} (h : driveCount ≤ drive) : d.file? drive = none := by
  rw [file?, Vector.getElem?_eq_none h]
  rfl

theorem held_eject (d : Drives) (target drive : Nat) :
    (d.eject target).held drive = if target = drive then (none, none) else d.held drive := by
  have hfile : (d.eject target).file? drive =
      if target = drive ∧ drive < driveCount then none else d.file? drive :=
    file?_setIfInBounds { d with controller := d.controller.eject target } target drive none
  have hdisk : (d.eject target).controller.disk drive =
      if target = drive then none else d.controller.disk drive :=
    Fdc.disk_eject ..
  rw [held, hfile, hdisk]
  by_cases ht : target = drive
  · by_cases hlt : drive < driveCount
    · simp [ht, hlt]
    · simp [ht, hlt, file?_eq_none (Nat.le_of_not_lt hlt)]
  · simp [ht, held]

theorem held_mount? {d d' : Drives} {target : Nat} {path : String} {image : Image}
    (h : d.mount? target path image = some d') (drive : Nat) :
    d'.held drive = if target = drive then (some path, some image) else d.held drive := by
  obtain ⟨hlt, h⟩ := Option.ite_none_right_eq_some.mp h
  obtain ⟨controller, hinsert, rfl⟩ := Option.map_eq_some_iff.mp h
  have hfile : file? { d with controller, files := d.files.setIfInBounds target (some path) } drive =
      if target = drive ∧ drive < driveCount then some path else d.file? drive :=
    file?_setIfInBounds { d with controller } target drive (some path)
  rw [held, hfile, Fdc.disk_of_insert hinsert]
  by_cases ht : target = drive
  · simp [ht, ht ▸ hlt]
  · simp [ht, held]

/-- The disk is in its file if it has unsaved changes, and no write has failed. -/
structure Saved (old : Option String × Option Image) (events : List FileEvent) : Prop where
  written : ∀ path image, old = (some path, some image) → image.dirty = true →
    .write path image.toBytes (.ok ()) ∈ events
  granted : ∀ path bytes problem, .write path bytes (.error problem) ∉ events

theorem unsaved?_eq_some_iff {d : Drives} {drive : Nat} {path : String} {image : Image} :
    d.unsaved? drive = some (path, image) ↔ d.held drive = (some path, some image) ∧ image.dirty = true := by
  simp only [unsaved?, held, Prod.mk.injEq]
  split
  · next p i hp hi =>
    rw [hp, hi]
    by_cases hd : i.dirty = true
    · simp only [hd, if_true, Option.some.injEq, Prod.mk.injEq, iff_self_and]
      rintro ⟨rfl, rfl⟩
      exact hd
    · simp only [hd, Bool.false_eq_true, if_false, reduceCtorEq, false_iff, not_and, Option.some.injEq]
      rintro ⟨rfl, rfl⟩
      exact hd
  · next hnone =>
    constructor
    · intro h
      cases h
    · rintro ⟨⟨hp, hi⟩, -⟩
      exact absurd hi (hnone path image hp)

/-! ## Taking disks out and putting them in -/

/-- What taking the disk out of a drive comes to. -/
inductive Removal (d : Drives) (drive : Nat) : List FileEvent → Except Error Unit → Drives → Prop
  | clean (h : d.unsaved? drive = none) : Removal d drive [] (.ok ()) (d.eject drive)
  | saved {path : String} {image : Image} (h : d.unsaved? drive = some (path, image)) :
      Removal d drive [.write path image.toBytes (.ok ())] (.ok ()) (d.eject drive)
  | refused {path : String} {image : Image} (h : d.unsaved? drive = some (path, image))
      (problem : FileProblem) :
      Removal d drive [.write path image.toBytes (.error problem)] (.error (.file path problem)) d

variable {s s' : Drives × Journal} {events : List FileEvent} {result : Except Error Unit}
  {drive : Nat} {path : String} {image : Image}

theorem save_runs (h : (save drive).Runs s events result s') :
    s'.1 = s.1 ∧ match s.1.unsaved? drive with
      | some (path, image) => ∃ answer, events = [.write path image.toBytes answer] ∧
          result = answer.mapError (.file path)
      | none => events = [] ∧ result = .ok () := by
  have hsave := runs_part_bind_iff.mp h
  cases hu : s.1.unsaved? drive with
  | none =>
    simp only [hu] at hsave
    obtain ⟨rfl, rfl, rfl⟩ := runs_pure_iff.mp hsave
    exact ⟨rfl, rfl, rfl⟩
  | some old =>
    simp only [hu] at hsave
    rcases runs_bind_iff.mp hsave with ⟨e, rfl, hwrite⟩ | ⟨⟨⟩, s₁, first, rest, rfl, hwrite, hnote⟩
    · obtain ⟨answer, rfl, he, rfl⟩ := runs_writeFile_iff.mp hwrite
      exact ⟨rfl, answer, rfl, he⟩
    · obtain ⟨answer, rfl, ha, rfl⟩ := runs_writeFile_iff.mp hwrite
      obtain ⟨rfl, rfl, rfl⟩ := runs_note_iff.mp hnote
      exact ⟨rfl, answer, rfl, ha⟩

theorem eq_of_save_error {e : Error} (h : (save drive).Runs s events (.error e) s') : s' = s := by
  have hsave := runs_part_bind_iff.mp h
  split at hsave
  · rcases runs_bind_iff.mp hsave with ⟨_, -, hwrite⟩ | ⟨⟨⟩, s₁, first, rest, -, -, hnote⟩
    · obtain ⟨-, -, -, rfl⟩ := runs_writeFile_iff.mp hwrite
      rfl
    · cases (runs_note_iff.mp hnote).2.1
  · cases (runs_pure_iff.mp hsave).2.1

/-- Taking a disk out asks nothing of the files but to save it, and fails only if that does. -/
theorem remove_runs_save (h : (remove drive).Runs s events result s') :
    ∃ s₁, (save drive).Runs s events result s₁ ∧
      ((∃ e, result = .error e) ∧ s' = s₁ ∨ result = .ok () ∧ s'.1 = s₁.1.eject drive) := by
  rcases runs_bind_iff.mp h with ⟨e, rfl, hsave⟩ | ⟨⟨⟩, s₁, first, rest, rfl, hsave, hrest⟩
  · exact ⟨s', hsave, .inl ⟨⟨e, rfl⟩, rfl⟩⟩
  · have hset := runs_part_bind_iff.mp hrest
    have hnotice := runs_setPart_bind_iff.mp hset
    have hend : rest = [] ∧ result = .ok () ∧ s'.1 = s₁.1.eject drive := by
      split at hnotice
      · split at hnotice <;>
        · obtain ⟨rfl, rfl, rfl⟩ := runs_note_iff.mp hnotice
          exact ⟨rfl, rfl, rfl⟩
      · obtain ⟨rfl, rfl, rfl⟩ := runs_pure_iff.mp hnotice
        exact ⟨rfl, rfl, rfl⟩
    obtain ⟨rfl, rfl, hs'⟩ := hend
    rw [List.append_nil]
    exact ⟨s₁, hsave, .inr ⟨rfl, hs'⟩⟩

theorem remove_runs (h : (remove drive).Runs s events result s') :
    Removal s.1 drive events result s'.1 := by
  obtain ⟨s₁, hsave, hend⟩ := remove_runs_save h
  obtain ⟨hpart, hevents⟩ := save_runs hsave
  rcases hend with ⟨⟨e, rfl⟩, rfl⟩ | ⟨rfl, hs'⟩
  · rw [hpart]
    split at hevents
    · next path image hu =>
      obtain ⟨answer, rfl, he⟩ := hevents
      cases answer with
      | ok => cases he
      | error problem =>
        cases he
        exact .refused hu problem
    · cases hevents.2
  · rw [hs', hpart]
    split at hevents
    · next path image hu =>
      obtain ⟨answer, rfl, ha⟩ := hevents
      cases answer with
      | ok => exact .saved hu
      | error => cases ha
    · next hu =>
      rw [hevents.1]
      exact .clean hu

theorem Removal.saved_of_ok {d d' : Drives} (h : Removal d drive events (.ok ()) d') :
    Saved (d.held drive) events ∧ d' = d.eject drive := by
  cases h with
  | clean hu =>
    refine ⟨⟨fun path image hold hd => ?_, by simp⟩, rfl⟩
    rw [unsaved?_eq_some_iff.mpr ⟨hold, hd⟩] at hu
    cases hu
  | saved hu =>
    refine ⟨⟨fun path image hold hd => ?_, by simp⟩, rfl⟩
    rw [unsaved?_eq_some_iff.mpr ⟨hold, hd⟩] at hu
    cases hu
    exact List.mem_singleton_self _

theorem Removal.eq_of_error {d d' : Drives} {e : Error} (h : Removal d drive events (.error e) d') :
    d' = d := by
  cases h
  rfl

theorem Removal.length_events {d d' : Drives} (h : Removal d drive events result d') :
    events.length = if (d.unsaved? drive).isSome then 1 else 0 := by
  cases h with
  | clean hu | saved hu | refused hu => simp [hu]

/-- What a call for a drive comes to, if it is neither only to take the disk out nor for all
drives: nothing, or the disk is taken out, and it may be that another is put in. -/
inductive Handled (d : Drives) (drive : Nat) (events : List FileEvent) : Except Error Unit → Drives → Prop
  | kept (e : Error) : Handled d drive events (.error e) d
  | emptied (r : Except Error Unit) (h : Saved (d.held drive) events) :
      Handled d drive events r (d.eject drive)
  | replaced {path : String} {image : Image} {d' : Drives} (h : Saved (d.held drive) events)
      (hclean : image.dirty = false) (hmount : (d.eject drive).mount? drive path image = some d') :
      Handled d drive events (.ok ()) d'

theorem Removal.handled {d d' : Drives} (h : Removal d drive events result d') :
    Handled d drive events result d' := by
  cases result with
  | ok =>
    obtain ⟨hsaved, rfl⟩ := h.saved_of_ok
    exact .emptied _ hsaved
  | error e =>
    rw [h.eq_of_error]
    exact .kept e

theorem exchange_runs (hclean : image.dirty = false)
    (h : (exchange drive path image).Runs s events result s') : Handled s.1 drive events result s'.1 := by
  rcases runs_bind_iff.mp h with ⟨e, rfl, hremove⟩ | ⟨⟨⟩, s₁, first, rest, rfl, hremove, hrest⟩
  · exact (remove_runs hremove).handled
  · obtain ⟨hsaved, hs₁⟩ := (remove_runs hremove).saved_of_ok
    have hmount := runs_part_bind_iff.mp hrest
    split at hmount
    · next d hd =>
      obtain ⟨rfl, rfl, rfl⟩ := runs_setPart_iff.mp hmount
      rw [List.append_nil]
      exact .replaced hsaved hclean (hs₁ ▸ hd)
    · obtain ⟨rfl, rfl, rfl⟩ := runs_throw_iff.mp hmount
      rw [List.append_nil, hs₁]
      exact .emptied _ hsaved

/-- What was asked for before is no failed write. -/
theorem Handled.after {d d' : Drives} {event : FileEvent}
    (hevent : ∀ path bytes problem, event ≠ .write path bytes (.error problem))
    (h : Handled d drive events result d') : Handled d drive (event :: events) result d' := by
  have hsaved : Saved (d.held drive) events → Saved (d.held drive) (event :: events) := fun h =>
    ⟨fun path image hold hd => .tail _ (h.written path image hold hd), fun path bytes problem hmem => by
      rcases List.mem_cons.mp hmem with he | hmem
      · exact hevent path bytes problem he.symm
      · exact h.granted path bytes problem hmem⟩
  cases h with
  | kept e => exact .kept e
  | emptied _ h => exact .emptied _ (hsaved h)
  | replaced h hclean hmount => exact .replaced (hsaved h) hclean hmount

/-- A disk is put in and a notice left of it, unless that fails. -/
structure Exchanged (s : Drives × Journal) (drive : Nat) (path : String) (image : Image)
    (events : List FileEvent) (result : Except Error Unit) (s₁ s' : Drives × Journal) : Prop where
  runs : (exchange drive path image).Runs s events result s₁
  drives : s'.1 = s₁.1
  error : ∀ e, result = .error e → s' = s₁

theorem exchange_note_runs {n : Notice}
    (h : (exchange drive path image >>= fun _ => note n).Runs s events result s') :
    ∃ s₁, Exchanged s drive path image events result s₁ s' := by
  rcases runs_bind_iff.mp h with ⟨e, rfl, hexchange⟩ | ⟨⟨⟩, s₁, first, rest, rfl, hexchange, hnote⟩
  · exact ⟨s', hexchange, rfl, fun _ _ => rfl⟩
  · obtain ⟨rfl, rfl, rfl⟩ := runs_note_iff.mp hnote
    rw [List.append_nil]
    exact ⟨s₁, hexchange, rfl, nofun⟩

/-- Before a disk is put in, its file is read, which may fail, and may not be that of a disk. -/
theorem insert_runs_cases (hpath : path ≠ "") (h : (insert drive path).Runs s events result s') :
    ∃ answer rest, events = .read path answer :: rest ∧
      ((∃ e, rest = [] ∧ result = .error e ∧ s' = s) ∨
        ∃ image s₁, image.dirty = false ∧ Exchanged s drive path image rest result s₁ s') := by
  have hempty : path.isEmpty = false := String.isEmpty_eq_false_iff.mpr hpath
  simp only [insert, hempty, Bool.false_eq_true, if_false] at h
  rcases runs_bind_iff.mp h with ⟨e, rfl, hread⟩ | ⟨bytes, s₁, first, rest, rfl, hread, hparse⟩
  · obtain ⟨answer, rfl, -, rfl⟩ := runs_readFile_iff.mp hread
    exact ⟨answer, [], rfl, .inl ⟨e, rfl, rfl, rfl⟩⟩
  · obtain ⟨answer, rfl, -, rfl⟩ := runs_readFile_iff.mp hread
    refine ⟨answer, rest, rfl, ?_⟩
    rcases runs_bind_iff.mp hparse with ⟨e, rfl, hrequire⟩ | ⟨image, s₂, first, rest, rfl, hrequire, hrest⟩
    · obtain ⟨rfl, -, rfl⟩ := runs_require_iff.mp hrequire
      exact .inl ⟨e, rfl, rfl, rfl⟩
    · obtain ⟨rfl, himage, rfl⟩ := runs_require_iff.mp hrequire
      have hclean : image.dirty = false := (Image.of_parse (mapError_eq_ok_iff.mp himage.symm)).2.1
      obtain ⟨s₃, hexchanged⟩ := exchange_note_runs hrest
      exact .inr ⟨image, s₃, hclean, hexchanged⟩

/-- Before a new disk is put in, its file is written, which may fail. -/
theorem create_runs_cases {format : Disk.Format} (h : (create drive path format).Runs s events result s') :
    ∃ answer rest, events = .write path (Image.formatted format).toBytes answer :: rest ∧
      ((∃ problem e, answer = .error problem ∧ rest = [] ∧ result = .error e ∧ s' = s) ∨
        ∃ s₁, answer = .ok () ∧ Exchanged s drive path (.formatted format) rest result s₁ s') := by
  rcases runs_bind_iff.mp h with ⟨e, rfl, hwrite⟩ | ⟨⟨⟩, s₁, first, rest, rfl, hwrite, hrest⟩
  · obtain ⟨answer, rfl, ha, rfl⟩ := runs_writeFile_iff.mp hwrite
    cases answer with
    | ok => cases ha
    | error problem => exact ⟨_, [], rfl, .inl ⟨problem, e, rfl, rfl, rfl, rfl⟩⟩
  · obtain ⟨answer, rfl, ha, rfl⟩ := runs_writeFile_iff.mp hwrite
    cases answer with
    | error => cases ha
    | ok =>
      obtain ⟨s₂, hexchanged⟩ := exchange_note_runs hrest
      exact ⟨_, rest, rfl, .inr ⟨s₂, rfl, hexchanged⟩⟩

theorem insert_runs (hpath : path ≠ "") (h : (insert drive path).Runs s events result s') :
    Handled s.1 drive events result s'.1 := by
  obtain ⟨answer, rest, rfl, ⟨e, rfl, rfl, rfl⟩ | ⟨image, s₁, hclean, hexchanged⟩⟩ := insert_runs_cases hpath h
  · exact .kept e
  · rw [hexchanged.drives]
    exact (exchange_runs hclean hexchanged.runs).after (by simp)

theorem create_runs {format : Disk.Format} (h : (create drive path format).Runs s events result s') :
    Handled s.1 drive events result s'.1 := by
  obtain ⟨answer, rest, rfl, ⟨problem, e, rfl, rfl, rfl, rfl⟩ | ⟨s₁, rfl, hexchanged⟩⟩ := create_runs_cases h
  · exact .kept e
  · rw [hexchanged.drives]
    exact (exchange_runs rfl hexchanged.runs).after (by simp)

theorem tryRemove_runs {r : Except Error (Except Error Unit)}
    (h : (tryRemove drive).Runs s events r s') :
    ∃ r₀, r = .ok r₀ ∧ Removal s.1 drive events r₀ s'.1 := by
  obtain ⟨r₀, s₁, first, rest, rfl, hremove, hrest⟩ := runs_attempt_bind_iff.mp h
  have hremoval := remove_runs hremove
  cases r₀ with
  | error e =>
    have hnote : (note (notice .error drive e.message) >>= fun _ => pure (.error e)).Runs s₁ rest r s' :=
      hrest
    have hpure := runs_note_bind_iff.mp hnote
    obtain ⟨rfl, rfl, rfl⟩ := runs_pure_iff.mp hpure
    exact ⟨.error e, rfl, by rwa [List.append_nil]⟩
  | ok =>
    obtain ⟨rfl, rfl, rfl⟩ := runs_pure_iff.mp hrest
    exact ⟨.ok (), rfl, by rwa [List.append_nil]⟩

theorem flush_runs (h : flush.Runs s events result s') :
    ∃ first rest r₀ r₁ d, events = first ++ rest ∧ Removal s.1 0 first r₀ d ∧
      Removal d 1 rest r₁ s'.1 := by
  rcases runs_bind_iff.mp h with ⟨e, -, hfirst⟩ | ⟨r₀, s₁, first, rest, rfl, hfirst, hrest⟩
  · obtain ⟨r₀, hr₀, -⟩ := tryRemove_runs hfirst
    cases hr₀
  · obtain ⟨r₀', hr₀, hfirst⟩ := tryRemove_runs hfirst
    cases hr₀
    rcases runs_bind_iff.mp hrest with ⟨e, -, hsecond⟩ | ⟨r₁, s₂, second, rest, rfl, hsecond, hrest⟩
    · obtain ⟨r₁, hr₁, -⟩ := tryRemove_runs hsecond
      cases hr₁
    · obtain ⟨r₁', hr₁, hsecond⟩ := tryRemove_runs hsecond
      cases hr₁
      have hend : rest = [] ∧ s' = s₂ := by
        rcases runs_bind_iff.mp hrest with ⟨e, -, hr⟩ | ⟨⟨⟩, s₃, first', rest, rfl, hr, hr'⟩
        · obtain ⟨rfl, -, rfl⟩ := runs_require_iff.mp hr
          exact ⟨rfl, rfl⟩
        · obtain ⟨rfl, -, rfl⟩ := runs_require_iff.mp hr
          obtain ⟨rfl, -, rfl⟩ := runs_require_iff.mp hr'
          exact ⟨rfl, rfl⟩
      obtain ⟨rfl, rfl⟩ := hend
      exact ⟨first, second, r₀, r₁, s₁.1, by rw [List.append_nil], hfirst, hsecond⟩

/-! ## What a call does to a drive -/

inductive Fate (call : Call) (d : Drives) (events : List FileEvent) (result : Except Error Unit) (d' : Drives)
    (drive : Nat) : Prop
  | kept (hcall : ¬call.Mounts result drive) (hnew : d'.held drive = d.held drive)
  | edited {file : Option String} {image image' : Image} (hcall : ¬call.Mounts result drive)
      (hshare : call.share d events drive = []) (hedit : Fdc.Edit image image')
      (hold : d.held drive = (file, some image)) (hnew : d'.held drive = (file, some image'))
  | emptied (h : Saved (d.held drive) (call.share d events drive)) (hnew : d'.held drive = (none, none))
  | mounted {path : String} {image : Image} (hcall : call.Mounts result drive)
      (h : Saved (d.held drive) (call.share d events drive)) (hclean : image.dirty = false)
      (hnew : d'.held drive = (some path, some image))

theorem Handled.held_of_ne {d d' : Drives} {target : Nat} (h : Handled d target events result d')
    (hne : target ≠ drive) : d'.held drive = d.held drive := by
  cases h with
  | kept => rfl
  | emptied => rw [held_eject, if_neg hne]
  | replaced _ _ hmount => rw [held_mount? hmount, if_neg hne, held_eject, if_neg hne]

/-- A call for one drive leaves the other alone, and puts a disk in if it succeeds. -/
theorem Handled.fate {call : Call} {d d' : Drives} {target : Nat} (h : Handled d target events result d')
    (hshare : ∀ drive, call.share d events drive = if target = drive then events else [])
    (hmounts : ∀ drive, call.Mounts result drive ↔ result = .ok () ∧ target = drive) :
    Fate call d events result d' drive := by
  by_cases ht : target = drive
  · subst ht
    have hown : call.share d events target = events := by rw [hshare, if_pos rfl]
    cases h with
    | kept e => exact .kept (fun hm => by cases ((hmounts _).mp hm).1) rfl
    | emptied _ h => exact .emptied (by rwa [hown]) (by rw [held_eject, if_pos rfl])
    | replaced h hclean hmount =>
      exact .mounted ((hmounts _).mpr ⟨rfl, rfl⟩) (by rwa [hown]) hclean
        (by rw [held_mount? hmount, if_pos rfl])
  · exact .kept (fun hm => ht ((hmounts _).mp hm).2) (h.held_of_ne ht)

/-- A disk is taken out of a drive that the rest of the call leaves alone. -/
theorem Removal.fate {call : Call} {before d d' after : Drives} {own : List FileEvent} {r : Except Error Unit}
    (h : Removal d drive own r d') (hbefore : d.held drive = before.held drive)
    (hafter : after.held drive = d'.held drive) (hshare : call.share before events drive = own)
    (hcall : ¬call.Mounts result drive) : Fate call before events result after drive := by
  cases r with
  | error e => exact .kept hcall (by rw [hafter, h.eq_of_error, hbefore])
  | ok =>
    obtain ⟨hsaved, rfl⟩ := h.saved_of_ok
    exact .emptied (hshare ▸ hbefore ▸ hsaved) (by rw [hafter, held_eject, if_pos rfl])

theorem fate_write {d : Drives} (h : d.controller.phase.Coherent) (v : UInt8) (events : List FileEvent)
    (result : Except Error Unit) (drive : Nat) :
    Fate (.write v) d events result { d with controller := d.controller.write v } drive := by
  have hcall : ¬(Call.write v).Mounts result drive := fun hm => hm.2
  have hsome := Fdc.isSome_disk_write d.controller v drive
  cases hnew : (d.controller.write v).disk drive with
  | none =>
    rw [hnew, Option.isSome_none, eq_comm, Option.isSome_eq_false_iff, Option.isNone_iff_eq_none] at hsome
    exact .kept hcall (Prod.ext rfl (hnew.trans hsome.symm))
  | some image' =>
    obtain ⟨image, hold, rfl | hedit⟩ := Fdc.editsDisks_write h v drive image' hnew
    · exact .kept hcall (Prod.ext rfl (hnew.trans hold.symm))
    · exact .edited hcall rfl hedit (Prod.ext rfl hold) (Prod.ext rfl hnew)

theorem call_fate {call : Call} (hphase : s.1.controller.phase.Coherent)
    (h : call.task.Runs s events result s') (drive : Nat) :
    Fate call s.1 events result s'.1 drive := by
  cases call with
  | insert target path =>
    by_cases hpath : path = ""
    · subst hpath
      have hremoval : Removal s.1 target events result s'.1 := remove_runs h
      by_cases ht : target = drive
      · subst ht
        exact hremoval.fate rfl rfl (if_pos rfl) fun hm => hm.2.2 rfl
      · exact .kept (fun hm => hm.2.2 rfl) (hremoval.handled.held_of_ne ht)
    · exact (insert_runs hpath h).fate (fun _ => rfl)
        fun drive => and_congr_right fun _ => and_iff_left hpath
  | remove target =>
    have hremoval : Removal s.1 target events result s'.1 := remove_runs h
    by_cases ht : target = drive
    · subst ht
      exact hremoval.fate rfl rfl (if_pos rfl) fun hm => hm.2
    · exact .kept (fun hm => hm.2) (hremoval.handled.held_of_ne ht)
  | create target path format => exact (create_runs h).fate (fun _ => rfl) fun _ => Iff.rfl
  | flush =>
    obtain ⟨first, rest, r₀, r₁, d, rfl, hfirst, hrest⟩ := flush_runs h
    have hfirst' : ∀ u, u ≠ 0 → d.held u = s.1.held u := fun u hu => hfirst.handled.held_of_ne hu.symm
    have hrest' : ∀ u, u ≠ 1 → s'.1.held u = d.held u := fun u hu => hrest.handled.held_of_ne hu.symm
    by_cases h0 : drive = 0
    · subst h0
      exact hfirst.fate rfl (hrest' 0 (by decide)) (List.take_left' hfirst.length_events) fun hm => hm.2
    · by_cases h1 : drive = 1
      · subst h1
        exact hrest.fate (hfirst' 1 h0) rfl (List.drop_left' hfirst.length_events) fun hm => hm.2
      · exact .kept (fun hm => hm.2) ((hrest' drive h1).trans (hfirst' drive h0))
  | reset | clock | setMotor =>
    rw [Call.task] at h
    obtain ⟨-, -, rfl⟩ := runs_modifyPart_iff.mp h
    exact .kept (fun hm => hm.2) rfl
  | read =>
    rw [Call.task] at h
    obtain ⟨-, -, rfl⟩ := runs_modifyPart_iff.mp h
    exact .kept (fun hm => hm.2) (Prod.ext rfl (Fdc.disk_of_drives (Fdc.drives_read _) drive))
  | write v =>
    rw [Call.task] at h
    obtain ⟨-, -, rfl⟩ := runs_modifyPart_iff.mp h
    exact fate_write hphase v events result drive

/-! ## What is kept in every history -/

/-- What is done to the controller for one drive, a host could do to it. -/
theorem Handled.actions {d d' : Drives} (h : Handled d drive events result d') :
    ∃ actions : List Fdc.Action, (∀ a ∈ actions, ¬a.Wires) ∧
      d'.controller = d.controller.performAll actions := by
  cases h with
  | kept => exact ⟨[], by simp, rfl⟩
  | emptied => exact ⟨[.eject drive], by simp [Fdc.Action.Wires], rfl⟩
  | @replaced path image _ _ _ hmount =>
    obtain ⟨-, hmount⟩ := Option.ite_none_right_eq_some.mp hmount
    obtain ⟨controller, hinsert, rfl⟩ := Option.map_eq_some_iff.mp hmount
    have hperform : ((d.eject drive).controller.insert drive image).getD (d.eject drive).controller =
        controller := by rw [hinsert, Option.getD_some]
    exact ⟨[.eject drive, .insert drive image], by simp [Fdc.Action.Wires], hperform.symm⟩

/-- Calls do nothing to the controller but what a host can do that leaves the drives where they are. -/
theorem call_actions {call : Call} (h : call.task.Runs s events result s') :
    ∃ actions : List Fdc.Action, (∀ a ∈ actions, ¬a.Wires) ∧
      s'.1.controller = s.1.controller.performAll actions := by
  have single : ∀ {a : Fdc.Action}, ¬a.Wires → s'.1.controller = s.1.controller.perform a →
      ∃ actions : List Fdc.Action, (∀ a ∈ actions, ¬a.Wires) ∧
        s'.1.controller = s.1.controller.performAll actions :=
    fun {a} ha hc => ⟨[a], by simpa using ha, hc⟩
  cases call with
  | insert target path =>
    by_cases hpath : path = ""
    · subst hpath
      exact (remove_runs (show (remove target).Runs s events result s' from h)).handled.actions
    · exact (insert_runs hpath h).actions
  | remove target => exact (remove_runs h).handled.actions
  | create target path format => exact (create_runs h).actions
  | flush =>
    obtain ⟨first, rest, r₀, r₁, d, rfl, hfirst, hrest⟩ := flush_runs h
    obtain ⟨actions₀, hquiet₀, hd⟩ := hfirst.handled.actions
    obtain ⟨actions₁, hquiet₁, hs'⟩ := hrest.handled.actions
    refine ⟨actions₀ ++ actions₁, fun a ha => (List.mem_append.mp ha).elim (hquiet₀ a) (hquiet₁ a), ?_⟩
    rw [hs', hd, Fdc.performAll_append]
  | reset =>
    rw [Call.task] at h
    obtain ⟨-, -, rfl⟩ := runs_modifyPart_iff.mp h
    exact single (a := .reset) id rfl
  | clock =>
    rw [Call.task] at h
    obtain ⟨-, -, rfl⟩ := runs_modifyPart_iff.mp h
    exact single (a := .clock) id rfl
  | setMotor on =>
    rw [Call.task] at h
    obtain ⟨-, -, rfl⟩ := runs_modifyPart_iff.mp h
    exact single (a := .setMotor on) id rfl
  | read =>
    rw [Call.task] at h
    obtain ⟨-, -, rfl⟩ := runs_modifyPart_iff.mp h
    exact single (a := .read) id rfl
  | write v =>
    rw [Call.task] at h
    obtain ⟨-, -, rfl⟩ := runs_modifyPart_iff.mp h
    exact single (a := .write v) id rfl

theorem call_coherent {call : Call} (hphase : s.1.controller.phase.Coherent)
    (h : call.task.Runs s events result s') : s'.1.controller.phase.Coherent := by
  obtain ⟨actions, -, hc⟩ := call_actions h
  rw [hc]
  exact Fdc.performAll_keeps (P := fun _ => True) (I := fun f => f.phase.Coherent)
    (fun _ a hf _ => Fdc.coherent_perform hf a) actions hphase fun a _ => a.brings_true

/-- A drive has a file if and only if it has a disk, and only a disk that has not been
changed since it was put in is without the mark of unsaved changes. -/
structure InOrder (history : List Step) (d : Drives) : Prop where
  phase : d.controller.phase.Coherent
  named : ∀ drive, (d.file? drive).isSome ↔ (d.controller.disk drive).isSome
  marked : ∀ drive image, d.controller.disk drive = some image → image.dirty = false →
    UnchangedSinceMount drive image history

theorem held_initial : ∀ drive, initial.held drive = (none, none)
  | 0 | 1 | 2 | 3 => rfl
  | drive + 4 => by
    have hfile : initial.file? (drive + 4) = none := file?_eq_none (Nat.le_add_left 2 (drive + 2))
    have hdisk : initial.controller.disk (drive + 4) = none := by
      rw [Fdc.disk, Fdc.drive, Vector.getElem?_eq_none (Nat.le_add_left 4 drive)]
      rfl
    rw [held, hfile, hdisk]

theorem InOrder.call {history : List Step} (h : InOrder history s.1) {step : Step}
    (hcall : step.call.task.Runs s step.events step.result step.after) :
    InOrder (step :: history) step.after.1 := by
  have hfate := call_fate h.phase hcall
  refine ⟨call_coherent h.phase hcall, fun drive => ?_, fun drive image hdisk hdirty => ?_⟩
  · have hnamed := h.named drive
    cases hfate drive with
    | kept _ hnew =>
      obtain ⟨hfile, hdisk⟩ := Prod.ext_iff.mp hnew
      simp only [held] at hfile hdisk
      rwa [hfile, hdisk]
    | edited _ _ _ hold hnew =>
      obtain ⟨hfile, hdisk⟩ := Prod.ext_iff.mp hold
      obtain ⟨hfile', hdisk'⟩ := Prod.ext_iff.mp hnew
      simp only [held] at hfile hdisk hfile' hdisk'
      rw [hfile, hdisk] at hnamed
      rwa [hfile', hdisk']
    | emptied _ hnew | mounted _ _ _ hnew =>
      obtain ⟨hfile, hdisk⟩ := Prod.ext_iff.mp hnew
      simp only [held] at hfile hdisk
      simp [hfile, hdisk]
  · refine ⟨hdisk, ?_⟩
    cases hfate drive with
    | kept _ hnew =>
      exact .inr (h.marked drive image ((congrArg Prod.snd hnew).symm.trans hdisk) hdirty)
    | edited _ _ hedit _ hnew =>
      cases hdisk.symm.trans (congrArg Prod.snd hnew)
      rw [hedit.dirty] at hdirty
      cases hdirty
    | emptied _ hnew => cases hdisk.symm.trans (congrArg Prod.snd hnew)
    | mounted hm => exact .inl hm

theorem Made.inOrder {history : List Step} (h : Made history s) : InOrder history s.1 := by
  induction h with
  | start =>
    have hdisk : ∀ drive, initial.controller.disk drive = none :=
      fun drive => congrArg Prod.snd (held_initial drive)
    refine ⟨trivial, fun drive => ?_, fun drive image h => ?_⟩
    · rw [hdisk, show initial.file? drive = none from congrArg Prod.fst (held_initial drive)]
      simp
    · cases (hdisk drive).symm.trans h
  | call step _ hcall ih => exact ih.call hcall

/-! ## A disk that cannot be saved -/

theorem remove_refused (h : s.1.unsaved? drive = some (path, image)) (problem : FileProblem) :
    (remove drive).Runs s [.write path image.toBytes (.error problem)] (.error (.file path problem)) s := by
  refine runs_bind_iff.mpr (.inl ⟨_, rfl, runs_part_bind_iff.mpr ?_⟩)
  rw [h]
  exact runs_bind_iff.mpr (.inl ⟨_, rfl, runs_writeFile_iff.mpr ⟨.error problem, rfl, rfl, rfl⟩⟩)

theorem Made.modify {history : List Step} (h : Made history s) (call : Call) {change : Drives → Drives}
    (hcall : (call.task : FileTask Drives Dialogue Unit) = modifyPart change) :
    ∃ history', Made history' (change s.1, s.2) := by
  have hruns : call.task.Runs s [] (.ok ()) (change s.1, s.2) := by
    rw [hcall]
    exact runs_modifyPart_iff.mpr ⟨rfl, rfl, rfl⟩
  exact ⟨_, h.call ⟨call, [], .ok (), _⟩ hruns⟩

theorem Made.writes {history : List Step} (h : Made history s) (bytes : List UInt8) :
    ∃ history', Made history' ({ s.1 with controller := bytes.foldl Fdc.write s.1.controller }, s.2) := by
  induction bytes generalizing history s with
  | nil => exact ⟨history, h⟩
  | cons v bytes ih =>
    obtain ⟨history', h'⟩ := h.modify (.write v) (by rw [Call.task])
    exact ih h'

/-- A new disk is in the first drive. -/
def createdDisk : Drives := (initial.mount? 0 "a" (.formatted .data)).getD initial

/-- The same after a track with no sectors has been formatted. -/
def reformatted : Drives :=
  let d := (createdDisk.setMotor true).clock
  { d with controller := [0x0D, 0, 2, 0, 0, 0xE5].foldl Fdc.write d.controller }

theorem made_reformatted : ∃ history journal, Made history (reformatted, journal) := by
  have hcreate : ∃ journal, (Call.create 0 "a" .data).task.Runs (initial, #[])
      [.write "a" (Image.formatted .data).toBytes (.ok ())] (.ok ()) (createdDisk, journal) :=
    ⟨_, .ok (), [], rfl, rfl, rfl⟩
  obtain ⟨journal, hcreate⟩ := hcreate
  have hmade := Made.start.call ⟨_, _, _, _⟩ hcreate
  obtain ⟨_, hmotor⟩ := hmade.modify (.setMotor true) (by rw [Call.task])
  obtain ⟨_, hclock⟩ := hmotor.modify .clock (by rw [Call.task])
  obtain ⟨history, h⟩ := hclock.writes [0x0D, 0, 2, 0, 0, 0xE5]
  exact ⟨history, journal, h⟩

/-! ## No change is dropped -/

/-- The disk that was in the drive before a call is no longer there. -/
def Leaves (call : Call) (result : Except Error Unit) (after : Drives) (drive : Nat) : Prop :=
  call.Mounts result drive ∨ after.controller.disk drive = none

/-- **No unsaved change is dropped.** After any history of calls a drive has a file if and
only if it has a disk. When the next call takes the disk out of a drive, either it is the
very disk that was put in, or its bytes were written to its file in that call. In any other
call it stays in the drive under its name, and is as it was or as a command has edited it.
If a write fails that the call asks for on behalf of the drive, then disk and name stay as
they are, and with the disk the mark of its unsaved changes. -/
theorem no_change_dropped {history : List Step} (hmade : Made history s) {call : Call}
    (hcall : call.task.Runs s events result s') (drive : Nat) :
    ((s.1.file? drive).isSome ↔ (s.1.controller.disk drive).isSome) ∧
      ∀ path image, s.1.file? drive = some path → s.1.controller.disk drive = some image →
        let own := call.share s.1 events drive
        (Leaves call result s'.1 drive →
          UnchangedSinceMount drive image history ∨ .write path image.toBytes (.ok ()) ∈ own) ∧
        (¬Leaves call result s'.1 drive → s'.1.file? drive = some path ∧
          ∃ image', s'.1.controller.disk drive = some image' ∧ (image' = image ∨ Fdc.Edit image image')) ∧
        ((∃ file bytes problem, .write file bytes (.error problem) ∈ own) →
          s'.1.file? drive = some path ∧ s'.1.controller.disk drive = some image) := by
  obtain ⟨hphase, hnamed, hmarked⟩ := hmade.inOrder
  refine ⟨hnamed drive, fun path image hfile hdisk => ?_⟩
  have hheld : s.1.held drive = (some path, some image) := Prod.ext hfile hdisk
  have hsaved : Saved (s.1.held drive) (call.share s.1 events drive) →
      UnchangedSinceMount drive image history ∨
        .write path image.toBytes (.ok ()) ∈ call.share s.1 events drive := fun h => by
    cases hdirty : image.dirty with
    | false => exact .inl (hmarked drive image hdisk hdirty)
    | true => exact .inr (h.written path image hheld hdirty)
  cases call_fate hphase hcall drive with
  | kept hm hnew =>
    have hfile' : s'.1.file? drive = some path := (congrArg Prod.fst hnew).trans hfile
    have hdisk' : s'.1.controller.disk drive = some image := (congrArg Prod.snd hnew).trans hdisk
    refine ⟨?_, fun _ => ⟨hfile', image, hdisk', .inl rfl⟩, fun _ => ⟨hfile', hdisk'⟩⟩
    rintro (h | h)
    · exact absurd h hm
    · cases hdisk'.symm.trans h
  | edited hm hshare hedit hold hnew =>
    cases hold.symm.trans hheld
    have hfile' : s'.1.file? drive = some path := congrArg Prod.fst hnew
    have hdisk' := congrArg Prod.snd hnew
    refine ⟨?_, fun _ => ⟨hfile', _, hdisk', .inr hedit⟩, ?_⟩
    · rintro (h | h)
      · exact absurd h hm
      · cases hdisk'.symm.trans h
    · rintro ⟨file, bytes, problem, hmem⟩
      rw [hshare] at hmem
      cases hmem
  | emptied h hnew =>
    refine ⟨fun _ => hsaved h, fun hstays => absurd (.inr (congrArg Prod.snd hnew)) hstays, ?_⟩
    rintro ⟨file, bytes, problem, hmem⟩
    exact absurd hmem (h.granted file bytes problem)
  | mounted hm h =>
    refine ⟨fun _ => hsaved h, fun hstays => absurd (.inl hm) hstays, ?_⟩
    rintro ⟨file, bytes, problem, hmem⟩
    exact absurd hmem (h.granted file bytes problem)

/-- Its file cannot be written when the disk is to leave, so it stays. -/
theorem no_change_dropped_refused : ∃ history journal image s',
    Made history (reformatted, journal) ∧ reformatted.unsaved? 0 = some ("a", image) ∧
      (Call.remove 0).task.Runs (reformatted, journal)
        [.write "a" image.toBytes (.error .permissionDenied)] (.error (.file "a" .permissionDenied)) s' ∧
      s'.1.file? 0 = some "a" ∧ s'.1.controller.disk 0 = some image := by
  obtain ⟨history, journal, hmade⟩ := made_reformatted
  have hunsaved : (reformatted.unsaved? 0).map (·.1) = some "a" := rfl
  obtain ⟨⟨_, image⟩, hunsaved, rfl⟩ := Option.map_eq_some_iff.mp hunsaved
  have hcall : (Call.remove 0).task.Runs (reformatted, journal)
      [.write "a" image.toBytes (.error .permissionDenied)] (.error (.file "a" .permissionDenied))
      (reformatted, journal) := remove_refused hunsaved .permissionDenied
  obtain ⟨hheld, -⟩ := unsaved?_eq_some_iff.mp hunsaved
  obtain ⟨hfile, hdisk⟩ := Prod.mk.inj hheld
  have hkept := ((no_change_dropped hmade hcall 0).2 _ image hfile hdisk).2.2
    ⟨_, _, _, List.mem_singleton_self _⟩
  exact ⟨history, journal, image, _, hmade, hunsaved, hcall, hkept⟩

end AmstradCpc.Drives
