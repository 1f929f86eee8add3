/-
Files as a map from paths to what reading gives, with writes that may fail. Which
writes fail is laid down beforehand and not known to the program, so what holds for
all such maps holds whatever the disk refuses. `Ends` is the outcome of a task that
works with such files; each way to build a task has a lemma on how it comes to its end.
-/
import Mathlib.Logic.Function.Basic
import AmstradCpc.Storage.FileTask

namespace AmstradCpc

structure FileMap where
  /-- What reading a file gives. -/
  contents : String → Except FileProblem ByteArray
  /-- For each write to come, why it fails, if it does. -/
  refusals : Nat → Option FileProblem

namespace FileMap

/-- One more write has been tried. -/
def next (files : FileMap) : FileMap := { files with refusals := fun i => files.refusals (i + 1) }

/-- A file holds these bytes. -/
def put (files : FileMap) (path : String) (bytes : ByteArray) : FileMap :=
  { files with contents := Function.update files.contents path (.ok bytes) }

/-- A write that fails leaves the file as it is. -/
instance monadFiles : MonadFiles (StateM FileMap) where
  readFile path := fun files => (files.contents path, files)
  writeFile path bytes := fun files =>
    match files.refusals 0 with
    | some problem => (.error problem, files.next)
    | none => (.ok (), files.next.put path bytes)

theorem write_eq (files : FileMap) (path : String) (bytes : ByteArray) :
    (MonadFiles.write path bytes : StateM FileMap _) files = match files.refusals 0 with
      | some problem => (.error (.file path problem), files.next)
      | none => (.ok (), files.next.put path bytes) := by
  have hwrite : (MonadFiles.writeFile path bytes : StateM FileMap _) files =
      match files.refusals 0 with
      | some problem => (.error problem, files.next)
      | none => (.ok (), files.next.put path bytes) := rfl
  have hrun : (MonadFiles.write path bytes : StateM FileMap _) files =
      (((MonadFiles.writeFile path bytes : StateM FileMap _) files).1.mapError (.file path),
        ((MonadFiles.writeFile path bytes : StateM FileMap _) files).2) := rfl
  rw [hrun, hwrite]
  cases files.refusals 0 <;> rfl

end FileMap

namespace FileTask

variable {σ α β : Type}

/-- A task that is begun with this part, these notices and these files ends with the
result, and with the part, the notices and the files that follow. -/
def Ends (task : FileTask σ (StateM FileMap) α) (s : σ × Journal) (files : FileMap) (r : Except Error α)
    (s' : σ × Journal) (files' : FileMap) : Prop :=
  (task.run.run s).run files = ((r, s'), files')

variable {s s' : σ × Journal} {files files' : FileMap}

/-! ## One step after the other -/

/-- A task that goes on after another ends with the error of the first, or as the second
does from where the first has ended. -/
theorem ends_bind_iff {task : FileTask σ (StateM FileMap) α} {next : α → FileTask σ (StateM FileMap) β}
    {r : Except Error β} : (task >>= next).Ends s files r s' files' ↔
      (∃ e, r = .error e ∧ task.Ends s files (.error e) s' files') ∨
        ∃ a s₁ files₁, task.Ends s files (.ok a) s₁ files₁ ∧ (next a).Ends s₁ files₁ r s' files' := by
  obtain ⟨⟨⟨r₁, s₁⟩, files₁⟩, htask⟩ : ∃ end₁, (task.run.run s).run files = end₁ := ⟨_, rfl⟩
  simp only [Ends, ExceptT.run_bind, StateT.run_bind, htask]
  cases r₁ with
  | error e =>
    constructor
    · intro h
      cases h
      exact .inl ⟨e, rfl, rfl⟩
    · rintro (⟨e', rfl, h⟩ | ⟨a, s₂, files₂, h, -⟩)
      · cases h
        rfl
      · cases h
  | ok a =>
    constructor
    · exact fun h => .inr ⟨a, s₁, files₁, rfl, h⟩
    · rintro (⟨e, -, h⟩ | ⟨a', s₂, files₂, h, hnext⟩)
      · cases h
      · cases h
        exact hnext

theorem Ends.bind_ok {task : FileTask σ (StateM FileMap) α} {next : α → FileTask σ (StateM FileMap) β}
    {b : β} (h : (task >>= next).Ends s files (.ok b) s' files') :
    ∃ a s₁ files₁, task.Ends s files (.ok a) s₁ files₁ ∧ (next a).Ends s₁ files₁ (.ok b) s' files' := by
  rcases ends_bind_iff.mp h with ⟨e, he, -⟩ | h
  · cases he
  · exact h

theorem Ends.and_then {task : FileTask σ (StateM FileMap) α} {next : α → FileTask σ (StateM FileMap) β}
    {a : α} {s₁ : σ × Journal} {files₁ : FileMap} {r : Except Error β}
    (h : task.Ends s files (.ok a) s₁ files₁) (hnext : (next a).Ends s₁ files₁ r s' files') :
    (task >>= next).Ends s files r s' files' :=
  ends_bind_iff.mpr (.inr ⟨a, s₁, files₁, h, hnext⟩)

/-- The same for ends of which only the part is laid down, with whatever notices and files. -/
theorem Ends.exists_and_then {task : FileTask σ (StateM FileMap) α} {next : α → FileTask σ (StateM FileMap) β}
    {a : α} {s₁ : σ × Journal} {files₁ : FileMap} {r : Except Error β} {s₂ : σ}
    (h : task.Ends s files (.ok a) s₁ files₁)
    (hnext : ∃ journal files', (next a).Ends s₁ files₁ r (s₂, journal) files') :
    ∃ journal files', (task >>= next).Ends s files r (s₂, journal) files' :=
  hnext.imp fun _ => Exists.imp fun _ => h.and_then

/-- What a single step does, it does in one way. -/
theorem ends_iff {task : FileTask σ (StateM FileMap) α} {r₀ r : Except Error α} {s₀ : σ × Journal}
    {files₀ : FileMap} (h : task.Ends s files r₀ s₀ files₀) :
    task.Ends s files r s' files' ↔ r = r₀ ∧ s' = s₀ ∧ files' = files₀ := by
  rw [Ends, h, Prod.mk.injEq, Prod.mk.injEq, and_assoc]
  exact and_congr eq_comm (and_congr eq_comm eq_comm)

theorem ends_pure_iff {a : α} {r : Except Error α} :
    (pure a : FileTask σ (StateM FileMap) α).Ends s files r s' files' ↔
      r = .ok a ∧ s' = s ∧ files' = files := ends_iff rfl

theorem ends_throw_iff {e : Error} {r : Except Error α} :
    (throw e : FileTask σ (StateM FileMap) α).Ends s files r s' files' ↔
      r = .error e ∧ s' = s ∧ files' = files := ends_iff rfl

/-- Stopping unless there is a result is the result. -/
theorem ends_require_iff {result r : Except Error α} :
    (require result : FileTask σ (StateM FileMap) α).Ends s files r s' files' ↔
      r = result ∧ s' = s ∧ files' = files := by
  cases result with
  | ok a => exact ends_pure_iff
  | error e => exact ends_throw_iff

/-! ## The part and the notices -/

theorem ends_note_iff {n : Notice} {r : Except Error Unit} :
    (note n : FileTask σ (StateM FileMap) Unit).Ends s files r s' files' ↔
      r = .ok () ∧ s' = (s.1, s.2.push n) ∧ files' = files := ends_iff rfl

theorem ends_setPart_iff {s₁ : σ} {r : Except Error Unit} :
    (setPart s₁ : FileTask σ (StateM FileMap) Unit).Ends s files r s' files' ↔
      r = .ok () ∧ s' = (s₁, s.2) ∧ files' = files := ends_iff rfl

/-- A task that asks for the part goes on with it. -/
theorem ends_part_bind_iff {next : σ → FileTask σ (StateM FileMap) α} {r : Except Error α} :
    (part >>= next).Ends s files r s' files' ↔ (next s.1).Ends s files r s' files' := Iff.rfl

/-! ## Files -/

/-- What the files answer is the result. -/
theorem ends_lift_iff {x : StateM FileMap α} {r : Except Error α} :
    (liftM x : FileTask σ (StateM FileMap) α).Ends s files r s' files' ↔
      r = .ok (x files).1 ∧ s' = s ∧ files' = (x files).2 := ends_iff rfl

theorem ends_lift_require_iff {x : StateM FileMap (Except Error α)} {r : Except Error α} :
    (liftM x >>= require : FileTask σ (StateM FileMap) α).Ends s files r s' files' ↔
      r = (x files).1 ∧ s' = s ∧ files' = (x files).2 := by
  refine ends_iff (Ends.and_then (ends_lift_iff.mpr ⟨rfl, rfl, rfl⟩) ?_)
  exact ends_require_iff.mpr ⟨rfl, rfl, rfl⟩

theorem ends_readFile_iff {path : String} {r : Except Error ByteArray} :
    (readFile path : FileTask σ (StateM FileMap) ByteArray).Ends s files r s' files' ↔
      r = (files.contents path).mapError (.file path) ∧ s' = s ∧ files' = files :=
  ends_lift_require_iff (x := MonadFiles.read path)

/-- A write fails if that is laid down, and otherwise the file holds the bytes. -/
theorem ends_writeFile_iff {path : String} {bytes : ByteArray} {r : Except Error Unit} :
    (writeFile path bytes : FileTask σ (StateM FileMap) Unit).Ends s files r s' files' ↔
      s' = s ∧ match files.refusals 0 with
        | some problem => r = .error (.file path problem) ∧ files' = files.next
        | none => r = .ok () ∧ files' = files.next.put path bytes := by
  refine (ends_lift_require_iff (x := MonadFiles.write path bytes)).trans ?_
  rw [FileMap.write_eq, and_left_comm]
  cases files.refusals 0 <;> rfl

end FileTask

end AmstradCpc
