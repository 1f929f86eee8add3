/-
Numbered registers. A program selects one and writes it, where it may; one who sets the chip up puts
values into any of them. A register keeps the bits that it has and is changed by nothing else, so
what it holds follows from the calls alone: the value that was stored in it last, or, if there is
none, what it holds after a reset (`Holds`). `holds_run` derives this of a chip from what a single call
does to its registers (`Takes`).
-/
import AmstradCpc.Proofs.History
import Mathlib.Algebra.Group.Nat.Defs

namespace AmstradCpc

structure Register where
  /-- How many bits it has. -/
  width : Nat
  /-- What it holds after a reset. -/
  initial : Nat := 0
  /-- Programs can write it. -/
  writable : Bool := true

/-- The registers of a chip, by their numbers. -/
structure RegisterFile where
  registers : List Register
  /-- How many bits of a selection are kept. -/
  selectionBits : Nat

/-- A call that is made to a chip, as far as it is about registers. -/
inductive RegisterCall where
  | select (v : UInt8)
  | write (v : UInt8)
  | poke (i : Nat) (v : UInt8)
  | reset
  /-- Whatever else there is to do with the chip. -/
  | other

namespace RegisterFile

variable (file : RegisterFile)

def isWritable (i : Nat) : Bool := (file.registers[i]?.map (·.writable)).getD false

/-- Which register is selected after a call. A reset selects the first one. -/
def selecting (selected : Nat) : RegisterCall → Nat
  | .select v => v.toNat % 2 ^ file.selectionBits
  | .reset => 0
  | .write _ | .poke _ _ | .other => selected

/-- Which register is selected after these calls. -/
def selection (calls : List RegisterCall) : Nat := calls.foldl file.selecting 0

/-- The call stores a value in register `i`: it pokes it there, or writes it while `i` is selected. -/
def Stores (i : Nat) (v : UInt8) (selected : Nat) : RegisterCall → Prop
  | .write w => selected = i ∧ file.isWritable i = true ∧ w = v
  | .poke j w => j = i ∧ w = v
  | .select _ | .reset | .other => False

/-- What was stored in register `i` is gone after the call. -/
def Replaces (i selected : Nat) (call : RegisterCall) : Prop :=
  call = .reset ∨ ∃ v, file.Stores i v selected call

/-- The last value that was stored in register `i` is `v`, and there was no reset since. -/
def LastStored (calls : List RegisterCall) (i : Nat) (v : UInt8) : Prop :=
  MarkedSince file.selecting (file.Stores i v) (file.Replaces i) 0 calls

/-- Every register holds those bits it has of the last value that was stored in it. -/
structure Holds (calls : List RegisterCall) (peek : Nat → UInt8) : Prop where
  stored : ∀ {i r v}, file.registers[i]? = some r → file.LastStored calls i v →
    (peek i).toNat = v.toNat % 2 ^ r.width
  untouched : ∀ {i r}, file.registers[i]? = some r → (∀ v, ¬file.LastStored calls i v) →
    (peek i).toNat = r.initial

/-- What a call makes of the registers. -/
structure Takes (selected : Nat) (call : RegisterCall) (before after : Nat → UInt8) : Prop where
  stored : ∀ {i r v}, file.registers[i]? = some r → file.Stores i v selected call →
    (after i).toNat = v.toNat % 2 ^ r.width
  reset : call = .reset → ∀ {i r}, file.registers[i]? = some r → (after i).toNat = r.initial
  kept : ∀ {i}, ¬file.Replaces i selected call → after i = before i

variable {file} {calls : List RegisterCall} {before after peek : Nat → UInt8} {i selected : Nat} {v : UInt8}

/-! ## Single calls -/

theorem takes_select (w : UInt8) : file.Takes selected (.select w) peek peek := ⟨nofun, nofun, fun _ => rfl⟩

theorem takes_other : file.Takes selected .other peek peek := ⟨nofun, nofun, fun _ => rfl⟩

theorem takes_reset (h : ∀ {i r}, file.registers[i]? = some r → (after i).toNat = r.initial) :
    file.Takes selected .reset before after := ⟨nofun, fun _ => h, fun hkept => absurd (.inl rfl) hkept⟩

theorem takes_poke (hself : ∀ {r}, file.registers[i]? = some r → (after i).toNat = v.toNat % 2 ^ r.width)
    (hothers : ∀ {j}, i ≠ j → after j = before j) : file.Takes selected (.poke i v) before after where
  stored := by
    rintro j r w hr ⟨rfl, rfl⟩
    exact hself hr
  reset := nofun
  kept hkept := hothers fun h => hkept (.inr ⟨v, h, rfl⟩)

/-- To write a register that programs can write is to poke the one that is selected. -/
theorem Takes.write (h : file.Takes selected (.poke selected v) before after)
    (hwritable : file.isWritable selected = true) : file.Takes selected (.write v) before after where
  stored := by
    rintro i r w hr ⟨rfl, -, rfl⟩
    exact h.stored hr ⟨rfl, rfl⟩
  reset := nofun
  kept hkept := by
    refine h.kept ?_
    rintro (hreset | ⟨w, rfl, rfl⟩)
    · exact nomatch hreset
    · exact hkept (.inr ⟨v, rfl, hwritable, rfl⟩)

theorem takes_write_refused (hrefused : file.isWritable selected = false) :
    file.Takes selected (.write v) peek peek where
  stored := by
    rintro i r w - ⟨rfl, hwritable, -⟩
    rw [hrefused] at hwritable
    exact absurd hwritable Bool.false_ne_true
  reset := nofun
  kept _ := rfl

/-! ## Any calls -/

theorem selection_concat (file : RegisterFile) (calls : List RegisterCall) (call : RegisterCall) :
    file.selection (calls ++ [call]) = file.selecting (file.selection calls) call := by
  rw [selection, List.foldl_append]
  rfl

theorem selection_lt (file : RegisterFile) (calls : List RegisterCall) :
    file.selection calls < 2 ^ file.selectionBits := by
  induction calls using List.reverseRecOn with
  | nil => exact Nat.two_pow_pos _
  | append_singleton calls call ih =>
    rw [selection_concat]
    cases call with
    | select v => exact Nat.mod_lt _ (Nat.two_pow_pos _)
    | reset => exact Nat.two_pow_pos _
    | write v => exact ih
    | poke i v => exact ih
    | other => exact ih

theorem Holds.concat (h : file.Holds calls before) {call : RegisterCall}
    (htakes : file.Takes (file.selection calls) call before after) :
    file.Holds (calls ++ [call]) after where
  stored hr hlast := by
    rcases markedSince_concat.mp hlast with hstores | ⟨hkept, hlast⟩
    · exact htakes.stored hr hstores
    · rw [htakes.kept hkept]
      exact h.stored hr hlast
  untouched {i r} hr hnone := by
    by_cases hreplaces : file.Replaces i (file.selection calls) call
    · -- Only a reset takes a value away without storing another.
      rcases hreplaces with hreset | ⟨v, hstores⟩
      · exact htakes.reset hreset hr
      · exact absurd (markedSince_concat.mpr (.inl hstores)) (hnone v)
    · rw [htakes.kept hreplaces]
      exact h.untouched hr fun v hlast => hnone v (markedSince_concat.mpr (.inr ⟨hreplaces, hlast⟩))

/-- A chip that begins as after a reset, and takes each call as its file of registers says. -/
theorem holds_run {σ ε : Type} {step : σ → ε → σ} {toCall : ε → RegisterCall} {selected : σ → Nat}
    {peek : σ → Nat → UInt8}
    (hselects : ∀ s e, selected (step s e) = file.selecting (selected s) (toCall e))
    (htakes : ∀ s e, file.Takes (selected s) (toCall e) (peek s) (peek (step s e)))
    {s : σ} (hs : selected s = 0) (hinitial : ∀ {i r}, file.registers[i]? = some r → (peek s i).toNat = r.initial)
    (events : List ε) :
    selected (events.foldl step s) = file.selection (events.map toCall) ∧
      file.Holds (events.map toCall) (peek (events.foldl step s)) := by
  induction events using List.reverseRecOn with
  | nil => exact ⟨hs, fun _ hlast => absurd hlast not_markedSince_nil, fun hr _ => hinitial hr⟩
  | append_singleton events e ih =>
    obtain ⟨hselected, hholds⟩ := ih
    have hstep := htakes (events.foldl step s) e
    rw [hselected] at hstep
    rw [List.map_append, List.map_singleton, List.foldl_append, List.foldl_cons, List.foldl_nil, hselects,
      hselected, selection_concat]
    exact ⟨rfl, hholds.concat hstep⟩

/-! ## Finding the last value -/

theorem lastStored_of_kept (before : List RegisterCall) (call : RegisterCall) (after : List RegisterCall)
    (hstores : file.Stores i v (file.selection before) call)
    (hafter : ∀ later ∈ after, ∀ selected, ¬file.Replaces i selected later) :
    file.LastStored (before ++ call :: after) i v := by
  refine ⟨before, call, after, rfl, hstores, ?_⟩
  rintro between later rest rfl
  exact hafter later (by simp) _

theorem not_lastStored (h : ∀ call ∈ calls, ∀ selected, ¬file.Stores i v selected call) :
    ¬file.LastStored calls i v := by
  rintro ⟨before, call, after, rfl, hstores, -⟩
  exact h call (by simp) _ hstores

end RegisterFile

end AmstradCpc
