/-
What a task asks of the files, and what it is answered. Nothing is laid down about the
answers: a file may have changed between two readings of it, and each write may succeed
or fail. So what holds of every run in this sense holds whatever the files are and
whatever else works on them. `Runs` is such a run from its beginning to its end; each
way to build a task has a lemma on how its runs are put together.
-/
import AmstradCpc.Storage.FileTask

namespace AmstradCpc

/-- A program as what it asks of the files next, and how it goes on after each answer. -/
inductive Dialogue (α : Type) where
  | done (a : α)
  | read (path : String) (next : Except FileProblem ByteArray → Dialogue α)
  | write (path : String) (bytes : ByteArray) (next : Except FileProblem Unit → Dialogue α)

/-- Something that was asked of the files, with the answer. -/
inductive FileEvent where
  | read (path : String) (answer : Except FileProblem ByteArray)
  | write (path : String) (bytes : ByteArray) (answer : Except FileProblem Unit)

namespace Dialogue

variable {α β : Type}

def andThen (f : α → Dialogue β) : Dialogue α → Dialogue β
  | .done a => f a
  | .read path next => .read path fun answer => (next answer).andThen f
  | .write path bytes next => .write path bytes fun answer => (next answer).andThen f

instance monad : Monad Dialogue where
  pure := .done
  bind x f := x.andThen f

instance monadFiles : MonadFiles Dialogue where
  readFile path := .read path .done
  writeFile path bytes := .write path bytes .done

/-- With these answers to what it asks, the program comes to this result. -/
def Takes : Dialogue α → List FileEvent → α → Prop
  | .done a, events, b => events = [] ∧ b = a
  | .read path next, events, b =>
    ∃ answer rest, events = .read path answer :: rest ∧ (next answer).Takes rest b
  | .write path bytes next, events, b =>
    ∃ answer rest, events = .write path bytes answer :: rest ∧ (next answer).Takes rest b

theorem takes_bind_iff {x : Dialogue α} {f : α → Dialogue β} {events : List FileEvent} {b : β} :
    (x >>= f).Takes events b ↔
      ∃ first a rest, events = first ++ rest ∧ x.Takes first a ∧ (f a).Takes rest b := by
  show (x.andThen f).Takes events b ↔ _
  induction x generalizing events with
  | done a =>
    constructor
    · exact fun h => ⟨[], a, events, rfl, ⟨rfl, rfl⟩, h⟩
    · rintro ⟨first, a', rest, rfl, ⟨rfl, rfl⟩, h⟩
      exact h
  | read path next ih | write path bytes next ih =>
    simp only [andThen, Takes, ih]
    constructor
    · rintro ⟨answer, _, rfl, first, a, rest, rfl, hx, hf⟩
      exact ⟨_ :: first, a, rest, rfl, ⟨answer, first, rfl, hx⟩, hf⟩
    · rintro ⟨_, a, rest, rfl, ⟨answer, first, rfl, hx⟩, hf⟩
      exact ⟨answer, first ++ rest, rfl, first, a, rest, rfl, hx, hf⟩

end Dialogue

namespace FileTask

variable {σ τ α β : Type} {s s' : σ × Journal} {events : List FileEvent}

/-- A task that is begun with this part and these notices may ask this of the files, and
end with the result and with the part and the notices that follow. -/
def Runs (task : FileTask σ Dialogue α) (s : σ × Journal) (events : List FileEvent) (r : Except Error α)
    (s' : σ × Journal) : Prop :=
  (task.run.run s).Takes events (r, s')

/-! ## One step after the other -/

/-- A run of a task that goes on after another is one of the first that ends in an error,
or one of the first and then one of the second from there. -/
theorem runs_bind_iff {task : FileTask σ Dialogue α} {next : α → FileTask σ Dialogue β} {r : Except Error β} :
    (task >>= next).Runs s events r s' ↔
      (∃ e, r = .error e ∧ task.Runs s events (.error e) s') ∨
        ∃ a s₁ first rest, events = first ++ rest ∧ task.Runs s first (.ok a) s₁ ∧
          (next a).Runs s₁ rest r s' := by
  simp only [Runs, ExceptT.run_bind, StateT.run_bind, Dialogue.takes_bind_iff]
  constructor
  · rintro ⟨first, ⟨r₁, s₁⟩, rest, rfl, htask, hnext⟩
    cases r₁ with
    | error e =>
      obtain ⟨rfl, hend⟩ := hnext
      cases hend
      exact .inl ⟨e, rfl, by rwa [List.append_nil]⟩
    | ok a => exact .inr ⟨a, s₁, first, rest, rfl, htask, hnext⟩
  · rintro (⟨e, rfl, htask⟩ | ⟨a, s₁, first, rest, rfl, htask, hnext⟩)
    · exact ⟨events, (.error e, s'), [], (List.append_nil _).symm, htask, rfl, rfl⟩
    · exact ⟨first, (.ok a, s₁), rest, rfl, htask, hnext⟩

theorem runs_bind_ok_iff {task : FileTask σ Dialogue α} {next : α → FileTask σ Dialogue β} {b : β} :
    (task >>= next).Runs s events (.ok b) s' ↔
      ∃ a s₁ first rest, events = first ++ rest ∧ task.Runs s first (.ok a) s₁ ∧
        (next a).Runs s₁ rest (.ok b) s' := by
  rw [runs_bind_iff]
  constructor
  · rintro (⟨e, he, -⟩ | h)
    · cases he
    · exact h
  · exact .inr

/-- What asks nothing of the files comes to one end. -/
theorem runs_iff {task : FileTask σ Dialogue α} {r₀ r : Except Error α} {s₀ : σ × Journal}
    (h : task.run.run s = .done (r₀, s₀)) :
    task.Runs s events r s' ↔ events = [] ∧ r = r₀ ∧ s' = s₀ := by
  rw [Runs, h, Dialogue.Takes, Prod.mk.injEq]

theorem runs_pure_iff {a : α} {r : Except Error α} :
    (pure a : FileTask σ Dialogue α).Runs s events r s' ↔ events = [] ∧ r = .ok a ∧ s' = s := runs_iff rfl

theorem runs_throw_iff {e : Error} {r : Except Error α} :
    (throw e : FileTask σ Dialogue α).Runs s events r s' ↔ events = [] ∧ r = .error e ∧ s' = s :=
  runs_iff rfl

theorem runs_require_iff {result r : Except Error α} :
    (require result : FileTask σ Dialogue α).Runs s events r s' ↔ events = [] ∧ r = result ∧ s' = s := by
  cases result with
  | ok a => exact runs_pure_iff
  | error e => exact runs_throw_iff

/-- An error that a task goes on after is its result. -/
theorem runs_attempt_iff {task : FileTask σ Dialogue α} {r : Except Error (Except Error α)} :
    task.attempt.Runs s events r s' ↔ ∃ r₀, r = .ok r₀ ∧ task.Runs s events r₀ s' := by
  have hrun : task.attempt.run.run s = (task.run.run s >>= fun p => pure (.ok p.1, p.2)) := rfl
  rw [Runs, hrun, Dialogue.takes_bind_iff]
  constructor
  · rintro ⟨first, ⟨r₀, s₀⟩, rest, rfl, htask, rfl, hend⟩
    cases hend
    exact ⟨r₀, rfl, by rwa [List.append_nil]⟩
  · rintro ⟨r₀, rfl, htask⟩
    exact ⟨events, (r₀, s'), [], (List.append_nil _).symm, htask, rfl, rfl⟩

theorem runs_attempt_bind_iff {task : FileTask σ Dialogue α}
    {next : Except Error α → FileTask σ Dialogue β} {r : Except Error β} :
    (task.attempt >>= next).Runs s events r s' ↔
      ∃ r₀ s₁ first rest, events = first ++ rest ∧ task.Runs s first r₀ s₁ ∧ (next r₀).Runs s₁ rest r s' := by
  rw [runs_bind_iff]
  constructor
  · rintro (⟨e, -, h⟩ | ⟨r₀, s₁, first, rest, hevents, htask, hnext⟩)
    · obtain ⟨r₀, hr₀, -⟩ := runs_attempt_iff.mp h
      cases hr₀
    · obtain ⟨r₁, hr₁, htask⟩ := runs_attempt_iff.mp htask
      cases hr₁
      exact ⟨r₀, s₁, first, rest, hevents, htask, hnext⟩
  · rintro ⟨r₀, s₁, first, rest, hevents, htask, hnext⟩
    exact .inr ⟨r₀, s₁, first, rest, hevents, runs_attempt_iff.mpr ⟨r₀, rfl, htask⟩, hnext⟩

/-! ## The part and the notices -/

theorem runs_note_iff {n : Notice} {r : Except Error Unit} :
    (note n : FileTask σ Dialogue Unit).Runs s events r s' ↔
      events = [] ∧ r = .ok () ∧ s' = (s.1, s.2.push n) := runs_iff rfl

theorem runs_setPart_iff {s₁ : σ} {r : Except Error Unit} :
    (setPart s₁ : FileTask σ Dialogue Unit).Runs s events r s' ↔
      events = [] ∧ r = .ok () ∧ s' = (s₁, s.2) := runs_iff rfl

theorem runs_modifyPart_iff {change : σ → σ} {r : Except Error Unit} :
    (modifyPart change : FileTask σ Dialogue Unit).Runs s events r s' ↔
      events = [] ∧ r = .ok () ∧ s' = (change s.1, s.2) := runs_iff rfl

/-- A task that asks for the part goes on with it. -/
theorem runs_part_bind_iff {next : σ → FileTask σ Dialogue α} {r : Except Error α} :
    (part >>= next).Runs s events r s' ↔ (next s.1).Runs s events r s' := Iff.rfl

theorem runs_note_bind_iff {n : Notice} {next : Unit → FileTask σ Dialogue α} {r : Except Error α} :
    (note n >>= next).Runs s events r s' ↔ (next ()).Runs (s.1, s.2.push n) events r s' := Iff.rfl

/-- Notices in a row. -/
theorem runs_notes_bind_iff {next : PUnit → FileTask σ Dialogue α} {r : Except Error α} :
    ∀ {notices : List Notice} {s : σ × Journal}, (notices.forM note >>= next).Runs s events r s' ↔
      (next ⟨⟩).Runs (s.1, notices.foldl Array.push s.2) events r s'
  | [], _ => Iff.rfl
  | n :: notices, s => by
    have hfirst : ((n :: notices).forM note >>= next).Runs s events r s' ↔
        (notices.forM note >>= next).Runs (s.1, s.2.push n) events r s' := Iff.rfl
    exact hfirst.trans runs_notes_bind_iff

theorem runs_setPart_bind_iff {s₁ : σ} {next : Unit → FileTask σ Dialogue α} {r : Except Error α} :
    (setPart s₁ >>= next).Runs s events r s' ↔ (next ()).Runs (s₁, s.2) events r s' := Iff.rfl

/-- A task on a part leaves the rest of the whole as it is. -/
theorem runs_within_iff {get : τ → σ} {set : τ → σ → τ} {task : FileTask σ Dialogue α}
    {s s' : τ × Journal} {r : Except Error α} :
    (within get set task).Runs s events r s' ↔
      ∃ p, task.Runs (get s.1, s.2) events r p ∧ s' = (set s.1 p.1, p.2) := by
  have hrun : (within get set task).run.run s =
      (task.run.run (get s.1, s.2) >>= fun p => pure (p.1, set s.1 p.2.1, p.2.2)) := rfl
  rw [Runs, hrun, Dialogue.takes_bind_iff]
  constructor
  · rintro ⟨first, ⟨r₀, p⟩, rest, rfl, htask, rfl, hend⟩
    cases hend
    exact ⟨p, by rwa [List.append_nil], rfl⟩
  · rintro ⟨p, htask, rfl⟩
    exact ⟨events, (r, p), [], (List.append_nil _).symm, htask, rfl, rfl⟩

/-! ## Files -/

theorem runs_readFile_iff {path : String} {r : Except Error ByteArray} :
    (readFile path : FileTask σ Dialogue ByteArray).Runs s events r s' ↔
      ∃ answer, events = [.read path answer] ∧ r = answer.mapError (.file path) ∧ s' = s := by
  have hrun : (readFile path : FileTask σ Dialogue ByteArray).run.run s =
      .read path fun answer => (require (answer.mapError (.file path)) : FileTask σ Dialogue _).run.run s := rfl
  rw [Runs, hrun]
  constructor
  · rintro ⟨answer, rest, rfl, h⟩
    obtain ⟨rfl, rfl, rfl⟩ := runs_require_iff.mp h
    exact ⟨answer, rfl, rfl, rfl⟩
  · rintro ⟨answer, rfl, rfl, rfl⟩
    exact ⟨answer, [], rfl, runs_require_iff.mpr ⟨rfl, rfl, rfl⟩⟩

theorem runs_writeFile_iff {path : String} {bytes : ByteArray} {r : Except Error Unit} :
    (writeFile path bytes : FileTask σ Dialogue Unit).Runs s events r s' ↔
      ∃ answer, events = [.write path bytes answer] ∧ r = answer.mapError (.file path) ∧ s' = s := by
  have hrun : (writeFile path bytes : FileTask σ Dialogue Unit).run.run s =
      .write path bytes fun answer =>
        (require (answer.mapError (.file path)) : FileTask σ Dialogue _).run.run s := rfl
  rw [Runs, hrun]
  constructor
  · rintro ⟨answer, rest, rfl, h⟩
    obtain ⟨rfl, rfl, rfl⟩ := runs_require_iff.mp h
    exact ⟨answer, rfl, rfl, rfl⟩
  · rintro ⟨answer, rfl, rfl, rfl⟩
    exact ⟨answer, [], rfl, runs_require_iff.mpr ⟨rfl, rfl, rfl⟩⟩

end FileTask

end AmstradCpc
