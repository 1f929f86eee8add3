/-
Grants of time, one after the other. A step does not look at the time that is left (`step_grant`),
so a longer grant begins with the steps of a shorter one (`Spends.grant`), and it makes no
difference in which portions time is granted (`clock_clock`).
-/
import AmstradCpc.Proofs.Cpu.Costs

namespace AmstradCpc

namespace Cpu

variable {β : Type} [Bus β]

/-! ## A step with more time left -/

theorem step_grant (cpu : Cpu) (bus : β) (quantum : UInt32) : (cpu.grant quantum).step bus =
    ((cpu.step bus).1, (cpu.step bus).2.1.grant quantum, (cpu.step bus).2.2) := by
  have hbeginning : (cpu.grant quantum).beginning = cpu.beginning := rfl
  rw [step_eq, step_eq, hbeginning]
  cases cpu.beginning <;> rfl

theorem spendStep_grant (s : Cpu × β) (quantum : UInt32) :
    spendStep (s.1.grant quantum, s.2) = ((spendStep s).1.grant quantum, (spendStep s).2) := by
  have hbudget (budget cost : Int32) :
      budget + quantum.toInt32 - cost = budget - cost + quantum.toInt32 := by
    rw [Int32.sub_eq_add_neg, Int32.sub_eq_add_neg, Int32.add_assoc, Int32.add_comm _ (-cost),
      ← Int32.add_assoc]
  unfold spendStep
  rw [step_grant]
  simp only [grant, hbudget]

/-- A grant within the range of the budget is added to it. -/
theorem toInt_budget_grant_of_lt {cpu : Cpu} {quantum : UInt32} (hquantum : quantum.toNat < 2 ^ 31)
    (hsum : cpu.budget.toInt + quantum.toNat < 2 ^ 31) :
    (cpu.grant quantum).budget.toInt = cpu.budget.toInt + quantum.toNat := by
  have hle := cpu.budget.le_toInt
  show (cpu.budget + quantum.toInt32).toInt = _
  rw [Int32.toInt_add, toInt_toInt32 hquantum]
  exact Int.bmod_eq_of_le (by omega) (by omega)

/-! ## One loop after another -/

/-- Where a loop stops, the loop of a longer grant goes on. -/
theorem Spends.grant {steps more : Nat} {s s' s'' : Cpu × β} {quantum : UInt32} (h : Spends steps s s')
    (hsum : s.1.budget.toInt + quantum.toNat < 2 ^ 31)
    (hrest : Spends more (s'.1.grant quantum, s'.2) s'') :
    Spends (steps + more) (s.1.grant quantum, s.2) s'' := by
  induction h with
  | done => simpa using hrest
  | @step steps s s' hpos _ ih =>
    have hgranted := toInt_budget_grant_of_lt (by omega) hsum
    have hbudget : (spendStep s).1.budget.toInt = s.1.budget.toInt - (s.1.step s.2).1 :=
      budget_spendStep hpos s.2
    have hmore : Spends (steps + more) (spendStep (s.1.grant quantum, s.2)) s'' := by
      rw [spendStep_grant]
      exact ih (by omega) hrest
    rw [Nat.add_right_comm]
    exact .step (by show 0 < (s.1.grant quantum).budget.toInt; omega) hmore

theorem grant_grant (cpu : Cpu) (q1 q2 : UInt32) : (cpu.grant q1).grant q2 = cpu.grant (q1 + q2) := by
  show { cpu with budget := cpu.budget + q1.toInt32 + q2.toInt32 } = _
  rw [Int32.add_assoc, ← UInt32.toInt32_add]
  rfl

/-- **It does not matter in which portions time is granted.** A grant that is followed by another
one leaves processor and bus as a grant of the sum does, and both take the same steps, wherever
the program is when the first one is spent: before an instruction, or with time of an instruction
still owed, which the second grant may or may not make up for. No grant takes the budget out of
its range, and nothing is asked of the bus. -/
theorem clock_clock (cpu : Cpu) (bus : β) (q1 q2 : UInt32) (hbudget : cpu.budget.toInt ≤ 0)
    (hsum : q1.toNat + q2.toNat < 2 ^ 31) :
    let (cpu1, bus1) := cpu.clock bus q1
    (cpu.canGrant q1 ∧ cpu1.canGrant q2 ∧ cpu.canGrant (q1 + q2)) ∧
    cpu1.clock bus1 q2 = cpu.clock bus (q1 + q2) ∧
    ∃ steps more, Spends steps (cpu.grant q1, bus) (cpu1, bus1) ∧
      Spends more (cpu1.grant q2, bus1) (cpu1.clock bus1 q2) ∧
      Spends (steps + more) (cpu.grant (q1 + q2), bus) (cpu.clock bus (q1 + q2)) := by
  have hlt : q1.toNat < 2 ^ 31 := by omega
  have hnat : (q1 + q2).toNat = q1.toNat + q2.toNat := by
    rw [UInt32.toNat_add, Nat.mod_eq_of_lt (by omega)]
  obtain ⟨steps, hfirst⟩ := cpu.exists_spends_clock bus q1
  obtain ⟨spent, hspent⟩ := cpu.spent_clock bus q1
  have hnonpos := hspent.nonpos
  obtain ⟨more, hsecond⟩ := (cpu.clock bus q1).1.exists_spends_clock (cpu.clock bus q1).2 q2
  have hgranted := toInt_budget_grant hlt hbudget
  have hboth : Spends (steps + more) (cpu.grant (q1 + q2), bus)
      ((cpu.clock bus q1).1.clock (cpu.clock bus q1).2 q2) := by
    rw [← grant_grant]
    exact hfirst.grant (by show (cpu.grant q1).budget.toInt + _ < _; omega) hsecond
  obtain ⟨_, hwhole⟩ := cpu.exists_spends_clock bus (q1 + q2)
  obtain ⟨rfl, heq⟩ := hboth.unique hwhole
  exact ⟨⟨canGrant_of_nonpos hlt hbudget, canGrant_of_nonpos (by omega) hnonpos,
    canGrant_of_nonpos (by omega) hbudget⟩, heq.symm, steps, more, hfirst, hsecond, hwhole⟩

/-- The first T-state runs an instruction of 25, and 20 more do not make up for it. -/
theorem clock_clock_prefixedCopy :
    initial.budget.toInt ≤ 0 ∧ (1 : UInt32).toNat + (20 : UInt32).toNat < 2 ^ 31 ∧
    (initial.clock prefixedCopy 1).1.clock (initial.clock prefixedCopy 1).2 20 =
      initial.clock prefixedCopy 21 :=
  ⟨by decide, by decide, (clock_clock initial prefixedCopy 1 20 (by decide) (by decide)).2.1⟩

end Cpu

end AmstradCpc
