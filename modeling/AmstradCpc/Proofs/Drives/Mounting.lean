/-
When a drive and the file of its disk agree. A disk is put into a drive after it was
read from its file or written to it, but before that the disk that was there goes back
to its own file. If that is the same file, and the old disk was changed, then the file
has the old disk from then on and the drive the new one. `shows_iff` says that nothing
else comes between them, whatever files there are and whichever writes fail.
-/
import AmstradCpc.Drives
import AmstradCpc.Proofs.Storage.FileMap
import AmstradCpc.Proofs.Disk.Reread
import AmstradCpc.Proofs.Fdc.Disks

namespace AmstradCpc

open Disk (Image)

open FileTask

namespace Drives

variable {s s' : Drives × Journal} {files files' : FileMap} {drive : Nat} {path : String} {image : Image}

/-! ## Taking a disk out -/

/-- What the files hold once a disk with unsaved changes is back in its file. -/
def saved (contents : String → Except FileProblem ByteArray) :
    Option (String × Image) → String → Except FileProblem ByteArray
  | some (path, old) => Function.update contents path (.ok old.toBytes)
  | none => contents

theorem save_ends (h : (save drive).Ends s files (.ok ()) s' files') :
    s'.1 = s.1 ∧ files'.contents = saved files.contents (s.1.unsaved? drive) := by
  have hsave := ends_part_bind_iff.mp h
  cases hu : s.1.unsaved? drive with
  | none =>
    simp only [hu] at hsave
    obtain ⟨-, rfl, rfl⟩ := ends_pure_iff.mp hsave
    exact ⟨rfl, rfl⟩
  | some old =>
    simp only [hu] at hsave
    obtain ⟨⟨⟩, s₁, files₁, hwrite, hnote⟩ := hsave.bind_ok
    obtain ⟨rfl, hwritten⟩ := ends_writeFile_iff.mp hwrite
    obtain ⟨-, rfl, rfl⟩ := ends_note_iff.mp hnote
    refine ⟨rfl, ?_⟩
    split at hwritten
    · cases hwritten.1
    · rw [hwritten.2]
      rfl

theorem remove_ends (h : (remove drive).Ends s files (.ok ()) s' files') :
    s'.1 = s.1.eject drive ∧ files'.contents = saved files.contents (s.1.unsaved? drive) := by
  obtain ⟨⟨⟩, s₁, files₁, hsave, hrest⟩ := h.bind_ok
  obtain ⟨hpart, hfiles⟩ := save_ends hsave
  obtain ⟨⟨⟩, s₂, files₂, hset, hnotice⟩ := (ends_part_bind_iff.mp hrest).bind_ok
  obtain ⟨-, rfl, rfl⟩ := ends_setPart_iff.mp hset
  have hsame : s'.1 = s₁.1.eject drive ∧ files' = files₂ := by
    split at hnotice
    · split at hnotice <;>
      · obtain ⟨-, rfl, rfl⟩ := ends_note_iff.mp hnotice
        exact ⟨rfl, rfl⟩
    · obtain ⟨-, rfl, rfl⟩ := ends_pure_iff.mp hnotice
      exact ⟨rfl, rfl⟩
  rw [hsame.1, hsame.2, hpart]
  exact ⟨rfl, hfiles⟩

/-! ## Putting a disk in -/

theorem disk_insert {f g : Fdc} {unit : Nat} (h : f.insert unit image = some g) :
    g.disk unit = some image := by
  obtain ⟨old, hold, rfl⟩ := Option.map_eq_some_iff.mp h
  rw [Fdc.disk, Fdc.drive_setDrive, if_pos ⟨rfl, Fdc.unit_lt_of_drive hold⟩]
  rfl

theorem disk_mount? {d d' : Drives} (h : d.mount? drive path image = some d') :
    d'.controller.disk drive = some image := by
  obtain ⟨-, h⟩ := Option.ite_none_right_eq_some.mp h
  obtain ⟨controller, hinsert, rfl⟩ := Option.map_eq_some_iff.mp h
  exact disk_insert hinsert

theorem exchange_ends (h : (exchange drive path image).Ends s files (.ok ()) s' files') :
    s'.1.controller.disk drive = some image ∧
      files'.contents = saved files.contents (s.1.unsaved? drive) := by
  obtain ⟨⟨⟩, s₁, files₁, hremove, hrest⟩ := h.bind_ok
  obtain ⟨-, hfiles⟩ := remove_ends hremove
  have hmount := ends_part_bind_iff.mp hrest
  split at hmount
  · next d hd =>
    obtain ⟨-, rfl, rfl⟩ := ends_setPart_iff.mp hmount
    exact ⟨disk_mount? hd, hfiles⟩
  · cases (ends_throw_iff.mp hmount).1

theorem mapError_eq_ok_iff {ε ε' α : Type} {f : ε → ε'} {x : Except ε α} {a : α} :
    x.mapError f = .ok a ↔ x = .ok a := by
  cases x <;> simp [Except.mapError]

/-- The disk of a file is read before the old one is saved. -/
theorem insert_ends (hpath : path ≠ "") (h : (insert drive path).Ends s files (.ok ()) s' files') :
    ∃ bytes image, files.contents path = .ok bytes ∧ Image.parse bytes = .ok image ∧
      s'.1.controller.disk drive = some image ∧
        files'.contents = saved files.contents (s.1.unsaved? drive) := by
  have hempty : path.isEmpty = false := String.isEmpty_eq_false_iff.mpr hpath
  simp only [insert, hempty, Bool.false_eq_true, if_false] at h
  obtain ⟨bytes, s₁, files₁, hread, hparse⟩ := h.bind_ok
  obtain ⟨hbytes, rfl, rfl⟩ := ends_readFile_iff.mp hread
  obtain ⟨image, s₂, files₂, hrequire, hrest⟩ := hparse.bind_ok
  obtain ⟨himage, rfl, rfl⟩ := ends_require_iff.mp hrequire
  obtain ⟨⟨⟩, s₃, files₃, hexchange, hnotice⟩ := hrest.bind_ok
  obtain ⟨-, rfl, rfl⟩ := ends_note_iff.mp hnotice
  obtain ⟨hdisk, hfiles⟩ := exchange_ends hexchange
  exact ⟨bytes, image, mapError_eq_ok_iff.mp hbytes.symm, mapError_eq_ok_iff.mp himage.symm, hdisk, hfiles⟩

/-- The file of a blank disk is written before the old disk is saved. -/
theorem create_ends {format : Disk.Format} (h : (create drive path format).Ends s files (.ok ()) s' files') :
    s'.1.controller.disk drive = some (.formatted format) ∧
      files'.contents = saved (Function.update files.contents path (.ok (Image.formatted format).toBytes))
        (s.1.unsaved? drive) := by
  obtain ⟨⟨⟩, s₁, files₁, hwrite, hrest⟩ := h.bind_ok
  obtain ⟨rfl, hwritten⟩ := ends_writeFile_iff.mp hwrite
  obtain ⟨⟨⟩, s₂, files₂, hexchange, hnotice⟩ := hrest.bind_ok
  obtain ⟨-, rfl, rfl⟩ := ends_note_iff.mp hnotice
  split at hwritten
  · cases hwritten.1
  · obtain ⟨-, rfl⟩ := hwritten
    exact exchange_ends hexchange

/-! ## Drive and file -/

/-- The drive holds a disk without unsaved changes, and it is the one that the file has. -/
def Shows (d : Drives) (files : FileMap) (drive : Nat) (path : String) : Prop :=
  ∃ bytes image, files.contents path = .ok bytes ∧ Image.parse bytes = .ok image ∧
    d.controller.disk drive = some image ∧ image.dirty = false

/-- A disk was put into the drive, from a file or with a new one. -/
inductive Mounted (s : Drives × Journal) (files : FileMap) (drive : Nat) (path : String)
    (s' : Drives × Journal) (files' : FileMap) : Prop
  | inserted (hpath : path ≠ "") (h : (insert drive path).Ends s files (.ok ()) s' files')
  | created (format : Disk.Format) (h : (create drive path format).Ends s files (.ok ()) s' files')

/-- Before the old disk is saved, drive and file agree. -/
theorem Mounted.before_saving (h : Mounted s files drive path s' files') :
    ∃ contents bytes image, contents path = .ok bytes ∧ Image.parse bytes = .ok image ∧
      s'.1.controller.disk drive = some image ∧
        files'.contents = saved contents (s.1.unsaved? drive) := by
  cases h with
  | inserted hpath h => exact ⟨_, insert_ends hpath h⟩
  | created format h =>
    exact ⟨_, _, _, Function.update_self .., Image.parse_toBytes_formatted format, create_ends h⟩

/-- **When a drive and its file agree.** After a disk was put into a drive, from a file
or with a new one, the drive holds the disk of the file, without unsaved changes, unless
the disk that was there before had unsaved changes of the same file. These are in the
file then, over what was read from it or written to it; so drive and file agree only if
reading them gives the disk that is in the drive. -/
theorem shows_iff (h : Mounted s files drive path s' files') :
    s'.1.Shows files' drive path ↔ ∀ old, s.1.unsaved? drive = some (path, old) →
      ∃ image, s'.1.controller.disk drive = some image ∧ Image.parse old.toBytes = .ok image := by
  obtain ⟨contents, bytes, image, hbytes, himage, hdisk, hfiles⟩ := h.before_saving
  constructor
  · rintro ⟨bytes', image', hbytes', himage', hdisk', -⟩ old hold
    rw [hfiles, hold, saved, Function.update_self] at hbytes'
    cases hbytes'
    exact ⟨image', hdisk', himage'⟩
  · intro hsame
    by_cases hold : ∃ old, s.1.unsaved? drive = some (path, old)
    · obtain ⟨old, hold⟩ := hold
      obtain ⟨image', hdisk', hparse⟩ := hsame old hold
      exact ⟨old.toBytes, image', by rw [hfiles, hold, saved, Function.update_self], hparse, hdisk',
        (Image.of_parse hparse).2.1⟩
    · have hkept : files'.contents path = .ok bytes := by
        rw [hfiles, ← hbytes]
        cases hu : s.1.unsaved? drive with
        | none => rfl
        | some unsaved =>
          refine Function.update_of_ne ?_ ..
          rintro rfl
          exact hold ⟨unsaved.2, hu⟩
      exact ⟨bytes, image, hkept, himage, hdisk, (Image.of_parse himage).2.1⟩

/-! ## Where the next write does not fail -/

theorem exists_save (s : Drives × Journal) (drive : Nat) (h : files.refusals 0 = none) :
    ∃ journal files', (save drive).Ends s files (.ok ()) (s.1, journal) files' := by
  cases hu : s.1.unsaved? drive with
  | none =>
    refine ⟨s.2, files, ends_part_bind_iff.mpr ?_⟩
    simp only [hu]
    exact ends_pure_iff.mpr ⟨rfl, rfl, rfl⟩
  | some old =>
    have hwrite : (writeFile old.1 old.2.toBytes : FileTask Drives (StateM FileMap) Unit).Ends s files
        (.ok ()) s (files.next.put old.1 old.2.toBytes) := by
      rw [ends_writeFile_iff, h]
      exact ⟨rfl, rfl, rfl⟩
    refine ⟨s.2.push (notice .info drive s!"saved {old.1}"), files.next.put old.1 old.2.toBytes,
      ends_part_bind_iff.mpr ?_⟩
    simp only [hu]
    exact hwrite.and_then (ends_note_iff.mpr ⟨rfl, rfl, rfl⟩)

theorem exists_remove (s : Drives × Journal) (drive : Nat) (h : files.refusals 0 = none) :
    ∃ journal files', (remove drive).Ends s files (.ok ()) (s.1.eject drive, journal) files' := by
  obtain ⟨journal, files', hsave⟩ := exists_save s drive h
  refine hsave.exists_and_then ?_
  simp only [ends_part_bind_iff]
  refine Ends.exists_and_then (ends_setPart_iff.mpr ⟨rfl, rfl, rfl⟩) ?_
  split
  · split
    · exact ⟨_, _, ends_note_iff.mpr ⟨rfl, rfl, rfl⟩⟩
    · exact ⟨_, _, ends_note_iff.mpr ⟨rfl, rfl, rfl⟩⟩
  · exact ⟨_, _, ends_pure_iff.mpr ⟨rfl, rfl, rfl⟩⟩

/-- Putting a disk in succeeds if its file can be read, the old disk can be saved and
there is the drive. -/
theorem exists_insert {s : Drives × Journal} {d : Drives} {bytes : ByteArray} (h : files.refusals 0 = none)
    (hpath : path ≠ "") (hbytes : files.contents path = .ok bytes) (himage : Image.parse bytes = .ok image)
    (hmount : (s.1.eject drive).mount? drive path image = some d) :
    ∃ journal files', (insert drive path).Ends s files (.ok ()) (d, journal) files' := by
  have hempty : path.isEmpty = false := String.isEmpty_eq_false_iff.mpr hpath
  obtain ⟨journal, files', hremove⟩ := exists_remove s drive h
  have hput : (exchange drive path image).Ends s files (.ok ()) (d, journal) files' := by
    refine hremove.and_then (ends_part_bind_iff.mpr ?_)
    simp only [hmount]
    exact ends_setPart_iff.mpr ⟨rfl, rfl, rfl⟩
  refine ⟨journal.push (notice .info drive s!"inserted {path}"), files', ?_⟩
  simp only [insert, hempty, Bool.false_eq_true, if_false]
  refine Ends.and_then (ends_readFile_iff.mpr ⟨by rw [hbytes]; rfl, rfl, rfl⟩) ?_
  refine Ends.and_then (ends_require_iff.mpr ⟨by rw [himage]; rfl, rfl, rfl⟩) ?_
  exact hput.and_then (ends_note_iff.mpr ⟨rfl, rfl, rfl⟩)

/-- A disk without tracks. -/
def bareDisk : Image := ⟨1, [], false⟩

/-- Every file is that of such a disk, and no write fails. -/
def bareFiles : FileMap := ⟨fun _ => .ok bareDisk.toBytes, fun _ => none⟩

/-- A disk that a track was formatted on after it came from the file `a`. -/
def grownDrives : Drives := (initial.mount? 0 "a" (bareDisk.formatTrack 0 0 [] 0)).getD initial

theorem parse_toBytes_bareDisk : Image.parse bareDisk.toBytes = .ok bareDisk := by decide +kernel

theorem exists_insert_bareDisk {path : String} (hpath : path ≠ "") : ∃ s' files',
    (insert 0 path).Ends (grownDrives, #[]) bareFiles (.ok ()) s' files' := by
  obtain ⟨d, hmount⟩ : ∃ d, (grownDrives.eject 0).mount? 0 path bareDisk = some d := ⟨_, rfl⟩
  obtain ⟨journal, files', h⟩ :=
    exists_insert (s := (grownDrives, #[])) (show bareFiles.refusals 0 = none from rfl) hpath rfl
      parse_toBytes_bareDisk hmount
  exact ⟨_, files', h⟩

/-- The file `b` is put in the place of the disk of `a`, and is shown. -/
theorem shows_other_file : ∃ s' files',
    Mounted (grownDrives, #[]) bareFiles 0 "b" s' files' ∧ s'.1.Shows files' 0 "b" := by
  obtain ⟨s', files', h⟩ := exists_insert_bareDisk (show "b" ≠ "" by decide)
  have hmounted : Mounted (grownDrives, #[]) bareFiles 0 "b" s' files' := .inserted (by decide) h
  refine ⟨s', files', hmounted, (shows_iff hmounted).mpr fun old hold => ?_⟩
  have hpath : (grownDrives.unsaved? 0).map (·.1) = some "a" := rfl
  rw [hold] at hpath
  exact absurd (show "b" = "a" from Option.some.inj hpath) (by decide)

/-- The file `a` is put in the place of its own disk. It has the track then, and the disk in the
drive does not. -/
theorem not_shows_same_file : ∃ s' files',
    Mounted (grownDrives, #[]) bareFiles 0 "a" s' files' ∧ ¬s'.1.Shows files' 0 "a" := by
  obtain ⟨s', files', h⟩ := exists_insert_bareDisk (show "a" ≠ "" by decide)
  refine ⟨s', files', .inserted (by decide) h, ?_⟩
  rintro ⟨bytes, image, hbytes, himage, hdisk, -⟩
  obtain ⟨bytes', image', hbytes', himage', hdisk', hfiles⟩ := insert_ends (by decide) h
  cases hbytes'
  cases himage'.symm.trans parse_toBytes_bareDisk
  cases hdisk.symm.trans hdisk'
  have hold : grownDrives.unsaved? 0 = some ("a", bareDisk.formatTrack 0 0 [] 0) := rfl
  rw [hfiles, hold, saved, Function.update_self] at hbytes
  cases hbytes
  have hgrown : (Image.parse (bareDisk.formatTrack 0 0 [] 0).toBytes).toOption.map (·.tracks.length) =
      some 1 := by decide +kernel
  rw [himage] at hgrown
  exact absurd hgrown (by decide)

end Drives

end AmstradCpc
