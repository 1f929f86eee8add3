/-
What the steps of the processor cost, and what a grant of time leaves of it. A step takes at
least 4 T-states and at most 25 (`accounts_step`): the least is an instruction without operands,
the most a repeating block instruction after an index prefix. So the loop of a grant ends, and
overruns it by at most 24 T-states (`clock_accounts`).
-/
import Mathlib.Algebra.Group.Int.Defs
import Mathlib.Algebra.Group.Nat.Defs
import AmstradCpc.Board
import AmstradCpc.Bus.Flat
import AmstradCpc.Proofs.Cpu.Steps

namespace AmstradCpc

/-- So many cycles have been counted; the count is a 64-bit word. -/
structure Ticks.Passed (t : Ticks) (cycles : Nat) (t' : Ticks) : Prop where
  advance : t' = t.advance cycles
  count : t.canAdvance cycles → t'.count.toNat = t.count.toNat + cycles

theorem Ticks.passed_of_eq {t t' : Ticks} {cycles : Nat} (h : t' = t.advance cycles) : t.Passed cycles t' :=
  ⟨h, fun hcan => h ▸ toNat_advance hcan⟩

namespace Cpu

variable {α γ : Type}

/-! ## What a piece of an instruction answers -/

section Rules

variable {β : Type}

/-- Whatever the registers and the bus are, the answer has the property. -/
def Answers (P : α → Prop) (work : Exec β α) : Prop := ∀ core, P (work core).1

/-- The answer is a cost between two bounds. -/
def Costs (low high : Nat) (work : Exec β Nat) : Prop := Answers (fun cost => low ≤ cost ∧ cost ≤ high) work

theorem Answers.bind {P : α → Prop} {Q : γ → Prop} {work : Exec β α} {next : α → Exec β γ}
    (h : Answers P work) (hnext : ∀ a, P a → Answers Q (next a)) : Answers Q (work >>= next) :=
  fun core => hnext _ (h core) _

variable {low high : Nat}

/-- What is done before does not matter. -/
theorem Costs.bind {work : Exec β α} {next : α → Exec β Nat} (hnext : ∀ a, Costs low high (next a)) :
    Costs low high (work >>= next) := fun core => hnext (work core).1 (work core).2

theorem Costs.pure {cost : Nat} (hlow : low ≤ cost) (hhigh : cost ≤ high) :
    Costs low high (Pure.pure cost : Exec β Nat) := fun _ => ⟨hlow, hhigh⟩

theorem Costs.ite {c : Prop} [Decidable c] {work other : Exec β Nat} (h : Costs low high work)
    (hother : Costs low high other) : Costs low high (if c then work else other) := by
  split
  · exact h
  · exact hother

theorem Costs.mono {low' high' : Nat} {work : Exec β Nat} (h : Costs low high work) (hlow : low' ≤ low)
    (hhigh : high ≤ high') : Costs low' high' work :=
  fun core => ⟨Nat.le_trans hlow (h core).1, Nat.le_trans (h core).2 hhigh⟩

end Rules

/-! ## Instructions -/

namespace Costs

variable {β : Type} [Bus β]

theorem displacementCost_le (idx : IndexReg) : displacementCost idx ≤ 8 := by
  cases idx <;> decide

theorem modifyOperand (idx : IndexReg) (f : UInt8 → Flags → UInt8 × Flags) (operand : Operand) :
    Costs 4 19 (Cpu.modifyOperand idx f operand : Exec β Nat) := by
  have hcost := displacementCost_le idx
  cases operand with
  | mem =>
    exact bind fun _ => bind fun _ => bind fun _ => bind fun _ => bind fun _ =>
      pure (by omega) (by omega)
  | reg _ => exact bind fun _ => bind fun _ => pure (by decide) (by decide)

theorem readOperand (idx : IndexReg) (operand : Operand) :
    Answers (fun answer => 4 ≤ answer.2 ∧ answer.2 ≤ 15) (Cpu.readOperand idx operand : Exec β (UInt8 × Nat)) := by
  have hcost := displacementCost_le idx
  intro core
  cases operand with
  | mem =>
    show 4 ≤ 7 + displacementCost idx ∧ 7 + displacementCost idx ≤ 15
    omega
  | reg _ =>
    show 4 ≤ 4 ∧ 4 ≤ 15
    decide

theorem bind_readOperand {idx : IndexReg} {operand : Operand} {next : UInt8 × Nat → Exec β Nat}
    (hnext : ∀ answer, 4 ≤ answer.2 → answer.2 ≤ 15 → Costs 4 19 (next answer)) :
    Costs 4 19 (Cpu.readOperand idx operand >>= next) :=
  (readOperand idx operand).bind fun answer h => hnext answer h.1 h.2

theorem execute (idx : IndexReg) (instr : Instr) : Costs 4 19 (Cpu.execute idx instr : Exec β Nat) := by
  have hcost := displacementCost_le idx
  have hstore : 4 ≤ (if idx = .hl then 10 else 15) ∧ (if idx = .hl then 10 else 15) ≤ 19 := by
    split <;> decide
  unfold Cpu.execute
  split <;> repeat' first
    | with_reducible exact modifyOperand idx _ _
    | with_reducible refine bind_readOperand fun _ _ _ => ?_
    | with_reducible refine bind fun _ => ?_
    | with_reducible refine ite ?_ ?_
    | exact pure (by omega) (by omega)

theorem executeBits (opcode : UInt8) : Costs 8 15 (Cpu.executeBits opcode : Exec β Nat) := by
  unfold Cpu.executeBits
  split
  · refine bind fun _ => bind fun _ => bind fun _ => bind fun _ => ?_
    split
    · exact bind fun _ => pure (by decide) (by decide)
    · exact pure (by decide) (by decide)
  · refine bind fun _ => bind fun _ => ?_
    split
    · exact bind fun _ => pure (by decide) (by decide)
    · exact pure (by decide) (by decide)

theorem executeIndexedBits (idx : IndexReg) : Costs 16 19 (Cpu.executeIndexedBits idx : Exec β Nat) := by
  refine bind fun _ => bind fun _ => bind fun _ => bind fun _ => bind fun _ => ?_
  split
  · refine bind fun _ => ?_
    split
    · exact bind fun _ => pure (by decide) (by decide)
    · exact pure (by decide) (by decide)
  · exact pure (by decide) (by decide)

theorem executeBlock (op : BlockOp) (down repeats : Bool) :
    Costs 16 21 (Cpu.executeBlock op down repeats : Exec β Nat) :=
  bind fun _ => ite
    (bind fun _ => ite (bind fun _ => pure (by decide) (by decide)) (pure (by decide) (by decide)))
    (pure (by decide) (by decide))

theorem executeExtended (instr : Extended) : Costs 8 21 (Cpu.executeExtended instr : Exec β Nat) := by
  unfold Cpu.executeExtended
  split <;> repeat' first
    | with_reducible exact (executeBlock _ _ _).mono (by decide) (by decide)
    | with_reducible refine bind fun _ => ?_
    | exact pure (by decide) (by decide)
    | split

/-! ## Steps -/

theorem executeOpcode (idx : IndexReg) (opcode : Opcode) :
    Costs 4 21 (Cpu.executeOpcode idx opcode : Exec β Nat) := by
  cases opcode with
  | plain i => exact (execute idx i).mono (by decide) (by decide)
  | bits =>
    exact ite (bind fun _ => (executeBits _).mono (by decide) (by decide))
      ((executeIndexedBits idx).mono (by decide) (by decide))
  | extended => exact bind fun _ => (executeExtended _).mono (by decide) (by decide)
  | index _ => exact pure (by decide) (by decide)

/-- A prefix adds its own fetch to what the opcode after it costs. -/
theorem executeIndexed (idx : IndexReg) : Costs 4 25 (Cpu.executeIndexed idx : Exec β Nat) := by
  refine bind fun _ => bind fun _ => ite (pure (by decide) (by decide)) (bind fun _ => ?_)
  exact Answers.bind (executeOpcode idx _) fun _ h => pure (by omega) (by omega)

theorem executeFetched (opcode : UInt8) : Costs 4 25 (Cpu.executeFetched opcode : Exec β Nat) := by
  unfold Cpu.executeFetched
  split
  · exact executeIndexed _
  · exact (executeOpcode .hl _).mono (by decide) (by decide)

theorem acceptNmi : Costs 11 11 (Cpu.acceptNmi : Exec β Nat) :=
  bind fun _ => bind fun _ => bind fun _ => bind fun _ => pure (by decide) (by decide)

theorem acceptInt : Costs 13 19 (Cpu.acceptInt : Exec β Nat) :=
  bind fun _ => bind fun _ => bind fun _ => bind fun _ => bind fun _ =>
    ite (bind fun _ => bind fun _ => pure (by decide) (by decide)) (bind fun _ => pure (by decide) (by decide))

end Costs

theorem costs_idle {β : Type} : Costs 4 4 (idle : Exec β Nat) := .bind fun _ => .pure (by decide) (by decide)

/-- What a step does to the counts of the processor. -/
structure Accounts (cpu : Cpu) (cost : Nat) (cpu' : Cpu) : Prop where
  low : 4 ≤ cost
  high : cost ≤ 25
  total : cpu'.total = cpu.total.advance cost
  budget : cpu'.budget = cpu.budget

theorem accounts_spend {β : Type} {work : Exec β Nat} (h : Costs 4 25 work) {cpu cpu' : Cpu} (bus : β)
    (shadow : Bool) (htotal : cpu'.total = cpu.total) (hbudget : cpu'.budget = cpu.budget) :
    cpu.Accounts (cpu'.spend bus shadow work).1 (cpu'.spend bus shadow work).2.1 :=
  ⟨(h _).1, (h _).2, congrArg (Ticks.advance · _) htotal, hbudget⟩

section Step

variable {β : Type} [Bus β]

/-- **A step takes at least 4 T-states and at most 25**, which are counted, and leaves the budget to
the loop that it is a part of. -/
theorem accounts_step (cpu : Cpu) (bus : β) : cpu.Accounts (cpu.step bus).1 (cpu.step bus).2.1 := by
  rw [step_eq]
  cases cpu.beginning with
  | nmi => exact accounts_spend (Costs.acceptNmi.mono (by decide) (by decide)) bus _ rfl rfl
  | interrupt => exact accounts_spend (Costs.acceptInt.mono (by decide) (by decide)) bus _ rfl rfl
  | idle => exact accounts_spend (costs_idle.mono (by decide) (by decide)) bus _ rfl rfl
  | fetch address => exact accounts_spend (Costs.executeFetched _) (Bus.fetch bus address).2 _ rfl rfl

end Step

/-! ## The budget -/

theorem toInt_sub_cost {budget : Int32} {cost : Nat} (hbudget : 0 < budget.toInt) (hcost : cost ≤ 25) :
    (budget - .ofNat cost).toInt = budget.toInt - cost := by
  have hle : budget.toInt < 2 ^ 31 := budget.toInt_lt
  rw [Int32.toInt_sub, Int32.toInt_ofNat_of_lt (by omega)]
  exact Int.bmod_eq_of_le (by omega) (by omega)

theorem toInt_toInt32 {quantum : UInt32} (h : quantum.toNat < 2 ^ 31) :
    quantum.toInt32.toInt = quantum.toNat := BitVec.toInt_eq_toNat_of_lt (Nat.mul_lt_mul_of_pos_left h Nat.two_pos)

theorem toInt_add_quantum {budget : Int32} {quantum : UInt32} (hbudget : budget.toInt ≤ 0)
    (hquantum : quantum.toNat < 2 ^ 31) : (budget + quantum.toInt32).toInt = budget.toInt + quantum.toNat := by
  have hle := budget.le_toInt
  rw [Int32.toInt_add, toInt_toInt32 hquantum]
  exact Int.bmod_eq_of_le (by omega) (by omega)

/-! ## The loop of a grant -/

section Loop

variable {β : Type} [Bus β]

/-- A step within a grant. -/
def spendStep (s : Cpu × β) : Cpu × β :=
  let (cost, cpu, bus) := s.1.step s.2
  ({ cpu with budget := cpu.budget - .ofNat cost }, bus)

/-- Steps are taken as long as there is time left. -/
inductive Spends : (steps : Nat) → Cpu × β → Cpu × β → Prop where
  | done {s : Cpu × β} (h : s.1.budget.toInt ≤ 0) : Spends 0 s s
  | step {steps : Nat} {s s' : Cpu × β} (h : 0 < s.1.budget.toInt) (hrest : Spends steps (spendStep s) s') :
      Spends (steps + 1) s s'

theorem Spends.unique {steps steps' : Nat} {s after after' : Cpu × β} (h : Spends steps s after)
    (h' : Spends steps' s after') : steps' = steps ∧ after' = after := by
  induction h generalizing steps' after' with
  | done hdone =>
    cases h' with
    | done => exact ⟨rfl, rfl⟩
    | step hstep => omega
  | step hstep _ ih =>
    cases h' with
    | done hdone => omega
    | step _ hrest =>
      obtain ⟨rfl, rfl⟩ := ih hrest
      exact ⟨rfl, rfl⟩

theorem budget_spendStep {cpu : Cpu} (h : 0 < cpu.budget.toInt) (bus : β) :
    (spendStep (cpu, bus)).1.budget.toInt = cpu.budget.toInt - (cpu.step bus).1 := by
  have haccounts := cpu.accounts_step bus
  show ((cpu.step bus).2.1.budget - .ofNat (cpu.step bus).1).toInt = _
  rw [haccounts.budget, toInt_sub_cost h haccounts.high]

/-- There is time for at most as many steps as there are T-states. -/
theorem exists_spends_runBudget (fuel : Nat) (cpu : Cpu) (bus : β) (h : cpu.budget.toInt ≤ fuel) :
    ∃ steps, Spends steps (cpu, bus) (cpu.runBudget fuel bus) := by
  induction fuel generalizing cpu bus with
  | zero => exact ⟨0, .done h⟩
  | succ fuel ih =>
    unfold runBudget
    by_cases hpos : 0 < cpu.budget
    · have hleft : 0 < cpu.budget.toInt := Int32.lt_iff_toInt_lt.mp hpos
      have hbudget := budget_spendStep hleft bus
      have hlow := (cpu.accounts_step bus).low
      obtain ⟨steps, hsteps⟩ := ih (spendStep (cpu, bus)).1 (spendStep (cpu, bus)).2 (by omega)
      rw [if_pos hpos]
      exact ⟨steps + 1, .step hleft hsteps⟩
    · rw [if_neg hpos]
      exact ⟨0, .done (Int.not_lt.mp fun hlt => hpos (Int32.lt_iff_toInt_lt.mpr hlt))⟩

/-- What the loop does to the counts: what is gone from the budget has been spent. -/
structure Spent (cpu : Cpu) (spent : Nat) (cpu' : Cpu) : Prop where
  total : cpu'.total = cpu.total.advance spent
  balance : spent + cpu'.budget.toInt = cpu.budget.toInt
  nonpos : cpu'.budget.toInt ≤ 0
  /-- Nothing is spent while time is owed. -/
  owed : cpu.budget.toInt ≤ 0 → cpu' = cpu
  /-- The last step has taken at most 24 T-states more than were left. -/
  overrun : 0 < cpu.budget.toInt → -24 ≤ cpu'.budget.toInt

theorem Spends.spent {steps : Nat} {s s' : Cpu × β} (h : Spends steps s s') : ∃ spent, s.1.Spent spent s'.1 := by
  induction h with
  | done hdone => exact ⟨0, by simp, by simp, hdone, fun _ => rfl, fun hpos => absurd hpos (by omega)⟩
  | @step steps s s' hpos hrest ih =>
    obtain ⟨spent, htotal, hbalance, hnonpos, -, hoverrun⟩ := ih
    have haccounts := s.1.accounts_step s.2
    have hbudget : (spendStep s).1.budget.toInt = s.1.budget.toInt - (s.1.step s.2).1 :=
      budget_spendStep hpos s.2
    have hhigh := haccounts.high
    refine ⟨(s.1.step s.2).1 + spent, ?_, by omega, hnonpos, fun howed => absurd hpos (by omega), fun _ => ?_⟩
    · rw [htotal, ← Ticks.advance_advance, ← haccounts.total]
      rfl
    · by_cases hleft : 0 < (spendStep s).1.budget.toInt
      · exact hoverrun hleft
      · -- That was the last step.
        cases hrest with
        | done => omega
        | step hmore => exact absurd hmore hleft

/-- The processor with a grant added to what it owes. -/
def grant (cpu : Cpu) (quantum : UInt32) : Cpu := { cpu with budget := cpu.budget + quantum.toInt32 }

theorem exists_spends_clock (cpu : Cpu) (bus : β) (quantum : UInt32) :
    ∃ steps, Spends steps (cpu.grant quantum, bus) (cpu.clock bus quantum) := by
  refine exists_spends_runBudget _ (cpu.grant quantum) bus ?_
  show (cpu.grant quantum).budget.toInt ≤ (cpu.grant quantum).budget.toInt.toNat
  omega

/-- The loop ends in one way, and a grant comes to that. -/
theorem spends_grant_iff (cpu : Cpu) (bus : β) (quantum : UInt32) : ∃ steps, ∀ steps' after,
    Spends steps' (cpu.grant quantum, bus) after ↔ steps' = steps ∧ after = cpu.clock bus quantum := by
  obtain ⟨steps, hspends⟩ := cpu.exists_spends_clock bus quantum
  refine ⟨steps, fun steps' after => ⟨fun h => hspends.unique h, ?_⟩⟩
  rintro ⟨rfl, rfl⟩
  exact hspends

theorem spent_clock (cpu : Cpu) (bus : β) (quantum : UInt32) :
    ∃ spent, (cpu.grant quantum).Spent spent (cpu.clock bus quantum).1 := by
  obtain ⟨steps, hspends⟩ := cpu.exists_spends_clock bus quantum
  exact hspends.spent

theorem toInt_budget_grant {cpu : Cpu} {quantum : UInt32} (hquantum : quantum.toNat < 2 ^ 31)
    (hbudget : cpu.budget.toInt ≤ 0) : (cpu.grant quantum).budget.toInt = cpu.budget.toInt + quantum.toNat :=
  toInt_add_quantum hbudget hquantum

theorem canGrant_of_nonpos {cpu : Cpu} {quantum : UInt32} (hquantum : quantum.toNat < 2 ^ 31)
    (hbudget : cpu.budget.toInt ≤ 0) : cpu.canGrant quantum = true := by
  have hle := cpu.budget.le_toInt
  have hmin : Int32.minValue.toInt = -2 ^ 31 := rfl
  have hmax : Int32.maxValue.toInt = 2 ^ 31 - 1 := rfl
  simp only [canGrant, toInt_toInt32 hquantum, Bool.and_eq_true, decide_eq_true_eq]
  omega

end Loop

/-! ## The dearest step -/

/-- Memory begins with a repeating copy that stands after an index prefix. -/
def prefixedCopy : FlatBus := ((FlatBus.empty.poke 0 0xDD).poke 1 0xED).poke 2 0xB0

theorem executeOpcode_extended {β : Type} [Bus β] (idx : IndexReg) (core : Core β) :
    executeOpcode idx .extended core =
      executeExtended (.decode (Exec.fetchOpcode core).1) (Exec.fetchOpcode core).2 := rfl

theorem cost_repeatedCopy {β : Type} [Bus β] (core : Core β) (h : core.regs.bc - 1 ≠ 0) :
    (executeExtended (.block .copy false true) core).1 = 21 := by
  have hmore : (blockItem .copy false core).1 = true := bne_iff_ne.mpr h
  rcases hitem : blockItem .copy false core with ⟨more, after⟩
  obtain rfl : more = true := by rwa [hitem] at hmore
  simp only [executeExtended, executeBlock, bind, StateT.bind, hitem]
  rfl

theorem cost_prefixedCopy (budget : Int32) : ({ initial with budget }.step prefixedCopy).1 = 25 := by
  have h0 : prefixedCopy.peek 0 = 0xDD := by
    rw [prefixedCopy, FlatBus.peek_poke_other _ _ (by decide), FlatBus.peek_poke_other _ _ (by decide),
      FlatBus.peek_poke_self]
  have h1 : prefixedCopy.peek 1 = 0xED := by
    rw [prefixedCopy, FlatBus.peek_poke_other _ _ (by decide), FlatBus.peek_poke_self]
  have h2 : prefixedCopy.peek 2 = 0xB0 := FlatBus.peek_poke_self ..
  have hindex : Opcode.decode 0xDD = .index .ix := by decide
  have hextended : Opcode.decode 0xED = .extended := by decide
  have hblock : Extended.decode 0xB0 = .block .copy false true := by decide
  let core (pc : UInt16) (r : UInt8) : Core FlatBus := ⟨{ Registers.initial with pc, r }, false, prefixedCopy⟩
  have hfetch (pc : UInt16) (r : UInt8) : Exec.fetchOpcode (core pc r) =
      (prefixedCopy.peek pc, core (pc + 1) (r &&& 0x80 ||| (r + 1) &&& 0x7F)) := rfl
  have hlook : lookAhead (core 1 1) = (0xED, core 1 1) := congrArg (·, core 1 1) h1
  have hcopy : (executeOpcode .ix .extended (core 2 2)).1 = 21 := by
    rw [executeOpcode_extended, hfetch, h2, hblock]
    exact cost_repeatedCopy (core 3 3) (by decide)
  have hindexed : (executeIndexed .ix (core 1 1)).1 = 25 := by
    rw [executeIndexed_nested .ix (by rw [hlook]; decide), hlook]
    simp only [hfetch, h1, hextended]
    exact congrArg (4 + ·) hcopy
  have hbegin : { initial with budget }.beginning = .fetch 0 := rfl
  show (stepped { initial with budget } prefixedCopy).1 = 25
  rw [stepped_fetch hbegin]
  show (executeFetched (Exec.fetchOpcode (core 0 0)).1 (Exec.fetchOpcode (core 0 0)).2).1 = 25
  rw [hfetch, h0, executeFetched, hindex]
  exact hindexed

/-! ## Grants -/

theorem fetchesAsRead_flatBus : Bus.FetchesAsRead FlatBus := fun _ _ => rfl

theorem fetchesAsRead_bench : Bus.FetchesAsRead Bench := fun _ _ => rfl

/-- **What a step costs, and what a grant of time comes to.** The bus is to fetch what it has just
read, as both the plain bus and the board do. A step that fetches an opcode then carries it out in
one way, with at most one more nested in it. Every step takes 4 to 25 T-states, which are
counted. A grant is spent in a number of steps, and what they took too much is owed: what is
counted makes up for what is gone from the budget. A grant that does not make up for what is owed
is added to it, and any other is overrun by at most 24 T-states. -/
theorem clock_accounts :
    (Bus.FetchesAsRead FlatBus ∧ Bus.FetchesAsRead Bench) ∧
    ∀ (β : Type) [Bus β], Bus.FetchesAsRead β → ∀ (cpu : Cpu) (bus : β),
      (∀ address, cpu.beginning = .fetch address →
        let (opcode, core) := Exec.fetchOpcode (cpu.core bus)
        ∃ depth ≤ 1, ∀ depth' after, Executes depth' .hl (.decode opcode) core after ↔
          depth' = depth ∧ after = cpu.stepped bus) ∧
      (4 ≤ (cpu.step bus).1 ∧ (cpu.step bus).1 ≤ 25 ∧
        cpu.total.Passed (cpu.step bus).1 (cpu.step bus).2.1.total) ∧
      ∀ quantum : UInt32, quantum.toNat < 2 ^ 31 → cpu.budget.toInt ≤ 0 →
        let cpu' := (cpu.clock bus quantum).1
        let granted : Int := cpu.budget.toInt + quantum.toNat
        cpu.canGrant quantum ∧
        (∃ steps, ∀ steps' after, Spends steps' (cpu.grant quantum, bus) after ↔
          steps' = steps ∧ after = cpu.clock bus quantum) ∧
        (if granted ≤ 0 then cpu'.budget.toInt = granted
          else -24 ≤ cpu'.budget.toInt ∧ cpu'.budget.toInt ≤ 0) ∧
        ∃ spent, cpu.total.Passed spent cpu'.total ∧ spent + cpu'.budget.toInt = granted := by
  refine ⟨⟨fetchesAsRead_flatBus, fetchesAsRead_bench⟩, fun β _ hbus cpu bus =>
    ⟨fun address h => executes_stepped_iff hbus h bus, ?_, fun quantum hquantum hbudget => ?_⟩⟩
  · have haccounts := cpu.accounts_step bus
    exact ⟨haccounts.low, haccounts.high, Ticks.passed_of_eq haccounts.total⟩
  · have hgranted : (cpu.grant quantum).budget.toInt = cpu.budget.toInt + quantum.toNat :=
      toInt_budget_grant hquantum hbudget
    obtain ⟨spent, htotal, hbalance, hnonpos, howed, hoverrun⟩ := cpu.spent_clock bus quantum
    refine ⟨canGrant_of_nonpos hquantum hbudget, cpu.spends_grant_iff bus quantum, ?_,
      spent, Ticks.passed_of_eq htotal, hbalance.trans hgranted⟩
    split
    next hnone =>
      rw [howed (by omega)]
      exact hgranted
    next hsome => exact ⟨hoverrun (by omega), hnonpos⟩

/-- A grant of a single T-state is overrun by as much as can be. -/
theorem clock_prefixedCopy : (1 : UInt32).toNat < 2 ^ 31 ∧ initial.budget.toInt ≤ 0 ∧
    (initial.step prefixedCopy).1 = 25 ∧ (initial.clock prefixedCopy 1).1.budget.toInt = -24 := by
  obtain ⟨-, -, hclock⟩ := clock_accounts.2 FlatBus fetchesAsRead_flatBus initial prefixedCopy
  obtain ⟨-, ⟨steps, hspends⟩, -⟩ := hclock 1 (by decide) (by decide)
  have hleft : 0 < (initial.grant 1).budget.toInt := by decide
  have hstep : (spendStep (initial.grant 1, prefixedCopy)).1.budget.toInt = -24 := by
    have hcost : ((initial.grant 1).step prefixedCopy).1 = 25 := cost_prefixedCopy _
    rw [budget_spendStep hleft, hcost]
    decide
  have hloop : Spends 1 (initial.grant 1, prefixedCopy) (spendStep (initial.grant 1, prefixedCopy)) :=
    .step hleft (.done (by rw [hstep]; decide))
  obtain ⟨-, hend⟩ := (hspends _ _).mp hloop
  refine ⟨by decide, by decide, cost_prefixedCopy 0, ?_⟩
  rw [← hend]
  exact hstep

end Cpu

end AmstradCpc
