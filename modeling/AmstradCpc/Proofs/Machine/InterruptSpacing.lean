/-
How far interrupts are apart. Lines end, pictures begin, interrupts are accepted and programs write
to the gate array, in any order (`Signal`). No signal takes the counter further than the lines that
have ended, and only from a count of 31 on can the end of a line interrupt and start it again; so
two interrupts are at least 32 lines apart. Lines that end with nothing between them bring the next
interrupt nearer one by one (`patience`). `interrupts_spaced` puts both together.
-/
import AmstradCpc.Proofs.Machine.LineCounter

namespace AmstradCpc.GateArray

/-- What reaches a gate array. -/
inductive Signal where
  /-- The horizontal sync falls. -/
  | lineEnds
  | vsyncBegins
  | acknowledge
  | write (v : UInt8)
  deriving DecidableEq

def receive (g : GateArray) : Signal → GateArray
  | .lineEnds => g.hsyncEnds.1
  | .vsyncBegins => g.vsyncBegins
  | .acknowledge => g.acknowledge
  | .write v => (g.write v).1

def receiveAll (g : GateArray) (signals : List Signal) : GateArray := signals.foldl receive g

/-- For a line that ends, whether it interrupts. -/
def answer (g : GateArray) : Signal → List Bool
  | .lineEnds => [g.hsyncEnds.2]
  | .vsyncBegins | .acknowledge | .write _ => []

/-- For each of the lines that end in a run of signals, whether it interrupts. -/
def interrupts (g : GateArray) : List Signal → List Bool
  | [] => []
  | signal :: signals => g.answer signal ++ (g.receive signal).interrupts signals

variable {g : GateArray}

theorem interrupts_append (first second : List Signal) :
    g.interrupts (first ++ second) = g.interrupts first ++ (g.receiveAll first).interrupts second := by
  induction first generalizing g with
  | nil => rfl
  | cons signal first ih =>
    simp only [List.cons_append, interrupts, ih, List.append_assoc, receiveAll, List.foldl_cons]

/-- There is an entry for every line. -/
theorem length_interrupts (signals : List Signal) : (g.interrupts signals).length = signals.count .lineEnds := by
  induction signals generalizing g with
  | nil => rfl
  | cons signal signals ih =>
    rw [interrupts, List.length_append, ih, List.count_cons, Nat.add_comm]
    cases signal <;> rfl

/-! ## What one signal does -/

theorem Kept.receive {P : GateArray → Prop} (hP : Kept P) (h : P g) (signal : Signal) : P (g.receive signal) := by
  cases signal with
  | lineEnds => exact hP.hsyncEnds h
  | vsyncBegins => exact hP.vsyncBegins h
  | acknowledge => exact hP.acknowledge h
  | write v => exact hP.write v h

theorem Kept.receiveAll {P : GateArray → Prop} (hP : Kept P) (h : P g) (signals : List Signal) :
    P (g.receiveAll signals) := by
  induction signals generalizing g with
  | nil => exact h
  | cons signal signals ih => exact ih (hP.receive h signal)

theorem toNat_counter_add_one_le (g : GateArray) : (g.counter + 1).toNat ≤ g.counter.toNat + 1 := by
  rw [UInt8.toNat_add]
  exact Nat.mod_le ..

/-- The counter goes up by one with a line, and not at all with another signal. -/
theorem toNat_counter_receive_le (g : GateArray) (signal : Signal) :
    (g.receive signal).counter.toNat ≤ g.counter.toNat + (g.answer signal).length := by
  cases signal with
  | lineEnds =>
    have hnext := toNat_counter_add_one_le g
    show g.hsyncEnds.1.counter.toNat ≤ g.counter.toNat + 1
    simp only [hsyncEnds]
    split
    · show (if _ then (0 : UInt8) else _).toNat ≤ _
      split
      · exact Nat.zero_le _
      · exact hnext
    · split
      · exact Nat.zero_le _
      · show (if _ then (0 : UInt8) else _).toNat ≤ _
        split
        · exact Nat.zero_le _
        · exact hnext
  | vsyncBegins => exact Nat.le_refl _
  | acknowledge =>
    show (g.counter &&& 0x1F).toNat ≤ g.counter.toNat
    exact UInt8.le_iff_toNat_le.mp UInt8.and_le_left
  | write v =>
    rcases counter_write (g := g) v with hsame | hzero
    · exact Nat.le_of_eq (congrArg UInt8.toNat hsame)
    · exact Nat.le_trans (Nat.le_of_eq (congrArg UInt8.toNat hzero)) (Nat.zero_le _)

/-- A line interrupts only from a count of 31 on, and the counter starts again with it. -/
theorem counter_of_interrupt (h : g.hsyncEnds.2 = true) :
    31 ≤ g.counter.toNat ∧ g.hsyncEnds.1.counter = 0 := by
  have hnext := toNat_counter_add_one_le g
  have hfull : (g.counter + 1 == interruptLines) = true → 31 ≤ g.counter.toNat := by
    intro hfull
    rw [beq_iff_eq.mp hfull] at hnext
    have hlines : interruptLines.toNat = 52 := rfl
    omega
  simp only [hsyncEnds] at h ⊢
  split at h
  next hzero =>
    rw [if_pos hzero, if_pos h]
    exact ⟨hfull h, rfl⟩
  next hzero =>
    rw [if_neg hzero]
    split at h
    next hone =>
      rw [if_pos hone]
      refine ⟨?_, rfl⟩
      by_cases hf : (g.counter + 1 == interruptLines) = true
      · exact hfull hf
      · rw [if_neg hf, Bool.eq_false_iff.mpr hf, Bool.false_or, decide_eq_true_eq] at h
        have hlate : 32 ≤ (g.counter + 1).toNat := h
        omega
    next hone =>
      rw [if_neg hone, if_pos h]
      exact ⟨hfull h, rfl⟩

/-! ## Runs of signals -/

/-- A line interrupts only when the counter can have come to 31 before it. -/
theorem le_of_interrupt {signals : List Signal} {i : Nat} (h : (g.interrupts signals)[i]? = some true) :
    31 ≤ g.counter.toNat + i := by
  induction signals generalizing g i with
  | nil => cases h
  | cons signal signals ih =>
    have hcounter := toNat_counter_receive_le g signal
    cases signal with
    | lineEnds =>
      cases i with
      | zero => exact (counter_of_interrupt (Option.some.inj h)).1
      | succ i =>
        have hrest := ih (g := g.receive .lineEnds) (i := i) h
        simp only [answer, List.length_singleton] at hcounter
        omega
    | vsyncBegins | acknowledge | write =>
      have hrest := ih h
      simp only [answer, List.length_nil] at hcounter
      omega

/-- After a line that interrupts the counter is zero, so the next such line is at least 32 lines on. -/
theorem interrupt_apart {signals : List Signal} {i j : Nat} (hij : i < j)
    (hi : (g.interrupts signals)[i]? = some true) (hj : (g.interrupts signals)[j]? = some true) : i + 32 ≤ j := by
  induction signals generalizing g i j with
  | nil => cases hi
  | cons signal signals ih =>
    cases signal with
    | lineEnds =>
      obtain ⟨j, rfl⟩ := Nat.exists_eq_add_one_of_ne_zero (Nat.ne_zero_of_lt hij)
      cases i with
      | zero =>
        have hlate := le_of_interrupt (g := g.hsyncEnds.1) (i := j) hj
        rw [(counter_of_interrupt (Option.some.inj hi)).2, UInt8.toNat_zero] at hlate
        omega
      | succ i =>
        have hrest := ih (g := g.receive .lineEnds) (Nat.lt_of_succ_lt_succ hij) hi hj
        omega
    | vsyncBegins | acknowledge | write => exact ih hij hi hj

/-- Lines with nothing between them, as many as there is patience for. -/
theorem mem_interrupts_replicate (h : g.InRange) {lines : Nat} (hlines : g.patience ≤ lines) :
    true ∈ g.interrupts (List.replicate lines .lineEnds) := by
  induction lines generalizing g with
  | zero => exact absurd hlines (Nat.not_le.mpr h.patience_pos)
  | succ lines ih =>
    show true ∈ g.hsyncEnds.2 :: g.hsyncEnds.1.interrupts (List.replicate lines .lineEnds)
    cases hquiet : g.hsyncEnds.2 with
    | true => exact List.mem_cons_self
    | false =>
      have hless := h.patience_hsyncEnds hquiet
      exact List.mem_cons_of_mem _ (ih h.hsyncEnds (by omega))

theorem InRange.patience_le_of_delayed (hdelayed : g.delayed = 0) : g.patience ≤ 52 := by
  rw [patience, if_pos hdelayed]
  exact Nat.sub_le ..

/-- **Interrupts are at least 32 lines apart, and never stay away for long.** Signals come to a gate
array in any order, and its counter and delay are in their ranges at the start. Then they are so at
every moment, and the counter never overruns. Any two lines that interrupt are at least 32 lines
apart. Where 54 lines end with no other signal between them, one of them interrupts; where the
counter is not about to start again, 52 lines are enough. -/
theorem interrupts_spaced (h : g.InRange) (signals : List Signal) :
    (∀ before, before <+: signals → (g.receiveAll before).InRange ∧ (g.receiveAll before).overrun = g.overrun) ∧
    (∀ i j, i < j → (g.interrupts signals)[i]? = some true → (g.interrupts signals)[j]? = some true → i + 32 ≤ j) ∧
    ∀ before lines after, signals = before ++ List.replicate lines .lineEnds ++ after →
      54 ≤ lines ∨ 52 ≤ lines ∧ (g.receiveAll before).delayed = 0 →
      ∃ i, before.count .lineEnds ≤ i ∧ i < before.count .lineEnds + lines ∧
        (g.interrupts signals)[i]? = some true := by
  refine ⟨fun before _ => ⟨kept_inRange.receiveAll h before, ?_⟩, fun i j => interrupt_apart, ?_⟩
  · exact ((kept_counts g.overrun).receiveAll ⟨h.counter, rfl⟩ before).2
  · rintro before lines after rfl hlines
    have hrange := kept_inRange.receiveAll h before
    have hpatience : (g.receiveAll before).patience ≤ lines := by
      rcases hlines with hmany | ⟨hfew, hdelayed⟩
      · exact hrange.patience_le.trans hmany
      · exact (InRange.patience_le_of_delayed hdelayed).trans hfew
    obtain ⟨k, hk, hinterrupts⟩ := List.mem_iff_getElem.mp (mem_interrupts_replicate hrange hpatience)
    have hbefore : (g.interrupts before).length = before.count .lineEnds := length_interrupts before
    have hcount : k < lines := by rwa [length_interrupts, List.count_replicate_self] at hk
    refine ⟨before.count .lineEnds + k, Nat.le_add_right .., Nat.add_lt_add_left hcount _, ?_⟩
    rw [← hbefore, List.append_assoc, interrupts_append, interrupts_append,
      List.getElem?_append_right (Nat.le_add_right ..), Nat.add_sub_cancel_left, List.getElem?_append_left hk,
      List.getElem?_eq_getElem hk, hinterrupts]

/-- A picture begins, and an interrupt that comes with it is accepted. -/
theorem interrupts_spaced_newPicture :
    ({ counter := 40 } : GateArray).InRange ∧
    ∃ i, 2 ≤ i ∧ i < 56 ∧ (({ counter := 40 } : GateArray).interrupts
      ([.vsyncBegins, .lineEnds, .lineEnds, .acknowledge] ++ List.replicate 54 .lineEnds ++ []))[i]? = some true := by
  have hrange : ({ counter := 40 } : GateArray).InRange := by decide
  obtain ⟨-, -, hwithin⟩ := interrupts_spaced hrange
    ([.vsyncBegins, .lineEnds, .lineEnds, .acknowledge] ++ List.replicate 54 .lineEnds ++ [])
  exact ⟨hrange, hwithin _ 54 [] rfl (.inl (Nat.le_refl 54))⟩

/-- As near as interrupts can come to each other. -/
example : (({ counter := 51 } : GateArray).interrupts
    (List.replicate 31 .lineEnds ++ [.vsyncBegins, .lineEnds, .lineEnds])).findIdxs id = [0, 32] := by decide +kernel

end AmstradCpc.GateArray
