/-
A repeating block instruction does one item at a time, and goes back to its own first byte as long as
there is more to do. `items` leaves out the going back: it is one item after the other, and what comes
of it is a matter of the four operations alone. `repeats` puts the two together: as long as no
interrupt gets in between and the instruction stays in memory, a run of the processor does the
items, each with its cost, and stands at the instruction again until the last one is done.
-/
import AmstradCpc.Proofs.Cpu.Costs
import AmstradCpc.Proofs.Cpu.Interrupts

namespace AmstradCpc

/-! ## Addresses and counters -/

/-- The address `k` places on from `a`, upwards or downwards. -/
def along (down : Bool) (a : UInt16) (k : Nat) : UInt16 := if down then a - .ofNat k else a + .ofNat k

@[simp] theorem along_zero (down : Bool) (a : UInt16) : along down a 0 = a := by
  cases down
  · exact UInt16.add_zero a
  · exact UInt16.sub_zero a

theorem sub_ofNat16_succ (w : UInt16) (k : Nat) : w - .ofNat (k + 1) = w - .ofNat k - 1 := by
  have hsucc : UInt16.ofNat (k + 1) = .ofNat k + 1 := UInt16.ofNat_add k 1
  rw [hsucc]
  grind

theorem sub_ofNat8_succ (w : UInt8) (k : Nat) : w - .ofNat (k + 1) = w - .ofNat k - 1 := by
  have hsucc : UInt8.ofNat (k + 1) = .ofNat k + 1 := UInt8.ofNat_add k 1
  rw [hsucc]
  grind

theorem along_succ (down : Bool) (a : UInt16) (k : Nat) :
    along down a (k + 1) = along down a k + Cpu.stride down := by
  cases down with
  | false =>
    have hsucc : UInt16.ofNat (k + 1) = .ofNat k + 1 := UInt16.ofNat_add k 1
    show a + .ofNat (k + 1) = a + .ofNat k + 1
    rw [hsucc, UInt16.add_assoc]
  | true => exact (sub_ofNat16_succ a k).trans (UInt16.sub_eq_add_neg _ 1)

/-- The addresses come round after 64K. -/
theorem along_injective {down : Bool} {a : UInt16} {i j : Nat} (hi : i < 65536) (hj : j < 65536)
    (h : along down a i = along down a j) : i = j := by
  have hnat : ∀ k < 65536, (UInt16.ofNat k).toNat = k := fun k hk => UInt16.toNat_ofNat_of_lt' hk
  have hword : UInt16.ofNat i = .ofNat j := by
    cases down with
    | false => exact (UInt16.add_right_inj a).mp h
    | true => exact (UInt16.sub_right_inj a).mp h
  rw [← hnat i hi, ← hnat j hj, hword]

theorem count16_pos {w : UInt16} {n : Nat} (hn : n = if w = 0 then 65536 else w.toNat) : 0 < n := by
  simp only [← UInt16.toNat_inj, UInt16.toNat_zero] at hn
  split at hn <;> omega

theorem count8_pos {w : UInt8} {n : Nat} (hn : n = if w = 0 then 256 else w.toNat) : 0 < n := by
  simp only [← UInt8.toNat_inj, UInt8.toNat_zero] at hn
  split at hn <;> omega

theorem count8_le {w : UInt8} {n : Nat} (hn : n = if w = 0 then 256 else w.toNat) : n ≤ 256 := by
  have hlt := w.toNat_lt
  split at hn <;> omega

theorem sub_ofNat8_injective {w : UInt8} {i j : Nat} (hi : i < 256) (hj : j < 256)
    (h : w - .ofNat i = w - .ofNat j) : i = j := by
  have hbyte : UInt8.ofNat i = .ofNat j := (UInt8.sub_right_inj w).mp h
  rw [← UInt8.toNat_inj, UInt8.toNat_ofNat_of_lt' hi, UInt8.toNat_ofNat_of_lt' hj] at hbyte
  exact hbyte

/-- A counter that starts from zero goes all the way round. -/
theorem sub_ofNat16_eq_zero_iff {w : UInt16} {n k : Nat} (hn : n = if w = 0 then 65536 else w.toNat)
    (hpos : 0 < k) (hk : k ≤ n) : w - .ofNat k = 0 ↔ k = n := by
  have hlt := w.toNat_lt
  rw [UInt16.sub_eq_iff_eq_add, UInt16.zero_add]
  simp only [← UInt16.toNat_inj, UInt16.toNat_ofNat', UInt16.toNat_zero] at hn ⊢
  split at hn <;> omega

theorem sub_ofNat8_eq_zero_iff {w : UInt8} {n k : Nat} (hn : n = if w = 0 then 256 else w.toNat)
    (hpos : 0 < k) (hk : k ≤ n) : w - .ofNat k = 0 ↔ k = n := by
  have hlt := w.toNat_lt
  rw [UInt8.sub_eq_iff_eq_add, UInt8.zero_add]
  simp only [← UInt8.toNat_inj, UInt8.toNat_ofNat', UInt8.toNat_zero] at hn ⊢
  split at hn <;> omega

namespace Cpu

/-! ## Items -/

/-- The second byte of a repeating block instruction; the first one is `ED`. -/
def BlockOp.opcode (op : BlockOp) (down : Bool) : UInt8 :=
  match op, down with
  | .copy, false => 0xB0
  | .compare, false => 0xB1
  | .input, false => 0xB2
  | .output, false => 0xB3
  | .copy, true => 0xB8
  | .compare, true => 0xB9
  | .input, true => 0xBA
  | .output, true => 0xBB

theorem BlockOp.decode_opcode (op : BlockOp) (down : Bool) :
    Extended.decode (op.opcode down) = .block op down true := by
  cases op <;> cases down <;> decide

section Items

variable {β : Type} [Bus β]

/-- Registers and bus after `k` items. Nothing is fetched, and the program counter does not move. -/
def items (op : BlockOp) (down : Bool) (core : Core β) : Nat → Core β
  | 0 => core
  | k + 1 => (blockItem op down (items op down core k)).2

/-- All registers are the same but those that block instructions are about, and those that change
with every instruction. -/
def Registers.OthersSame (r r' : Registers) : Prop :=
  r' = { r with
    b := r'.b, c := r'.c, d := r'.d, e := r'.e, h := r'.h, l := r'.l, f := r'.f
    pc := r'.pc, r := r'.r, wz := r'.wz }

theorem Registers.OthersSame.trans {r r' r'' : Registers} (h : r.OthersSame r') (h' : r'.OthersSame r'') :
    r.OthersSame r'' := by
  unfold OthersSame at *
  rw [h', h]

theorem Registers.OthersSame.a_eq {r r' : Registers} (h : r.OthersSame r') : r'.a = r.a := by rw [h]

theorem Registers.OthersSame.iff1_eq {r r' : Registers} (h : r.OthersSame r') : r'.iff1 = r.iff1 := by rw [h]

theorem Registers.OthersSame.halted_eq {r r' : Registers} (h : r.OthersSame r') : r'.halted = r.halted := by
  rw [h]

theorem othersSame_blockItem (op : BlockOp) (down : Bool) (core : Core β) :
    core.regs.OthersSame (blockItem op down core).2.regs := by
  cases op <;> rfl

theorem othersSame_items (op : BlockOp) (down : Bool) (core : Core β) (k : Nat) :
    core.regs.OthersSame (items op down core k).regs := by
  induction k with
  | zero => rfl
  | succ k ih => exact ih.trans (othersSame_blockItem op down _)

/-- Every operation goes through memory by HL. -/
theorem hl_items (op : BlockOp) (down : Bool) (core : Core β) (k : Nat) :
    (items op down core k).regs.hl = along down core.regs.hl k := by
  induction k with
  | zero => exact (along_zero ..).symm
  | succ k ih =>
    rw [along_succ, ← ih]
    cases op <;> exact joinBytes_halves _

end Items

/-! ## One step -/

/-- The same but for program counter, refresh counter and address latch, which fetching and going back
change. No item looks at them. -/
def Core.Alike {β : Type} (core core' : Core β) : Prop :=
  ∃ pc r wz, core' = { core with regs := { core.regs with pc, r, wz } }

theorem Core.Alike.trans {β : Type} {core core' core'' : Core β} (h : core.Alike core')
    (h' : core'.Alike core'') : core.Alike core'' := by
  obtain ⟨pc, r, wz, rfl⟩ := h
  obtain ⟨pc', r', wz', rfl⟩ := h'
  exact ⟨pc', r', wz', rfl⟩

theorem Core.Alike.blockItem {β : Type} [Bus β] {core core' : Core β} (h : core.Alike core') (op : BlockOp)
    (down : Bool) :
    (Cpu.blockItem op down core').1 = (Cpu.blockItem op down core).1 ∧
      (Cpu.blockItem op down core).2.Alike (Cpu.blockItem op down core').2 := by
  obtain ⟨pc, r, wz, rfl⟩ := h
  cases op <;> exact ⟨rfl, _, _, _, rfl⟩

theorem executeBlock_eq {β : Type} [Bus β] (op : BlockOp) (down : Bool) (core : Core β) :
    let item := blockItem op down core
    let after := executeBlock op down true core
    after.1 = (if item.1 then 21 else 16) ∧ item.2.Alike after.2 ∧
      after.2.regs.pc = if item.1 then core.regs.pc - 2 else core.regs.pc := by
  have hpc : (blockItem op down core).2.regs.pc = core.regs.pc := (blockItem_unfinished op down core).2
  rw [← hpc]
  rcases hitem : blockItem op down core with ⟨more, item⟩
  cases more with
  | false =>
    have hend : executeBlock op down true core = (16, item) := by
      simp only [executeBlock, bind, StateT.bind, hitem]
      rfl
    rw [hend]
    exact ⟨rfl, ⟨_, _, _, rfl⟩, rfl⟩
  | true =>
    have hback : ∃ wz, executeBlock op down true core =
        (21, { item with regs := { item.regs with pc := item.regs.pc - 2, wz } }) := by
      simp only [executeBlock, bind, StateT.bind, hitem]
      cases op <;> exact ⟨_, rfl⟩
    obtain ⟨wz, hback⟩ := hback
    rw [hback]
    exact ⟨rfl, ⟨_, _, _, rfl⟩, rfl⟩

/-- Both bytes of a repeating block instruction are in memory. -/
structure HoldsBlock (bus : FlatBus) (pc : UInt16) (op : BlockOp) (down : Bool) : Prop where
  first : bus.peek pc = 0xED
  second : bus.peek (pc + 1) = op.opcode down

/-- A maskable interrupt can be accepted at the step numbered `k`, if no EI comes until then. An EI
right before holds it off for one step and no longer. -/
def Acceptable (cpu : Cpu) (k : Nat) : Prop :=
  cpu.intLatch = true ∧ cpu.regs.iff1 = true ∧ (cpu.shadow = true → 0 < k)

/-- Nothing but the program determines the next `n` steps. -/
structure Undisturbed (cpu : Cpu) (n : Nat) : Prop where
  running : cpu.regs.halted = false
  nmi : cpu.nmiLatch = false
  int : ∀ k < n, ¬cpu.Acceptable k

variable {cpu : Cpu} {bus : FlatBus} {op : BlockOp} {down : Bool}

theorem beginning_eq_fetch (hrunning : cpu.regs.halted = false) (hnmi : cpu.nmiLatch = false)
    (hint : cpu.intLatch = true → cpu.regs.iff1 = true → cpu.shadow = true) :
    cpu.beginning = .fetch cpu.regs.pc := by
  unfold beginning
  grind

/-- One item is done, and the instruction comes next again if there is more to do. -/
theorem step_block (hbegins : cpu.beginning = .fetch cpu.regs.pc) (hcode : HoldsBlock bus cpu.regs.pc op down) :
    let item := blockItem op down (cpu.core bus)
    let cpu' := (cpu.step bus).2.1
    (cpu.step bus).1 = (if item.1 then 21 else 16) ∧ item.2.Alike (cpu'.core (cpu.step bus).2.2) ∧
      cpu'.regs.pc = (if item.1 then cpu.regs.pc else cpu.regs.pc + 2) ∧
      cpu' = { cpu with regs := cpu'.regs, shadow := false, total := cpu'.total } := by
  let fetched := (Exec.fetchOpcode (Exec.fetchOpcode (cpu.core bus)).2).2
  have hstep : cpu.step bus = cpu.after (executeBlock op down true fetched) := by
    have hsecond : (Exec.fetchOpcode (Exec.fetchOpcode (cpu.core bus)).2).1 = op.opcode down := hcode.second
    rw [step_eq_executeOpcode hbegins hcode.first (by decide), show Opcode.decode 0xED = .extended by decide,
      executeOpcode_extended, hsecond, op.decode_opcode]
    rfl
  have hfetched : (cpu.core bus).Alike fetched := ⟨_, _, _, rfl⟩
  obtain ⟨hmore, halike⟩ := hfetched.blockItem op down
  obtain ⟨hcost, hafter, hpc⟩ := executeBlock_eq op down fetched
  have hstart : fetched.regs.pc = cpu.regs.pc + 2 := UInt16.add_assoc cpu.regs.pc 1 1
  have hshadow : (blockItem op down (cpu.core bus)).2.shadow = false := by cases op <;> rfl
  rw [hmore] at hcost hpc
  rw [hstart, UInt16.add_sub_cancel] at hpc
  rw [hstep]
  -- An instruction ends without interrupts being held off.
  have hafter := halike.trans hafter
  generalize executeBlock op down true fetched = outcome at hcost hafter hpc ⊢
  obtain ⟨cost, regs, shadow, bus'⟩ := outcome
  obtain rfl : shadow = false := by
    obtain ⟨_, _, _, heq⟩ := hafter
    rw [← hshadow]
    exact congrArg Core.shadow heq
  exact ⟨hcost, hafter, hpc, rfl⟩

/-! ## A run -/

/-- What the first `k` steps of an instruction that takes `n` steps come to. -/
structure Repeats (cpu : Cpu) (bus : FlatBus) (op : BlockOp) (down : Bool) (n k : Nat) : Prop where
  costs : (cpu.run bus k).1 = (List.range k).map fun i => if i + 1 < n then 21 else 16
  pc : (cpu.run bus k).2.1.regs.pc = if k < n then cpu.regs.pc else cpu.regs.pc + 2
  alike : (items op down (cpu.core bus) k).Alike ((cpu.run bus k).2.1.core (cpu.run bus k).2.2)
  shadow : 0 < k → (cpu.run bus k).2.1.shadow = false
  nmi : (cpu.run bus k).2.1.nmiLatch = cpu.nmiLatch
  int : (cpu.run bus k).2.1.intLatch = cpu.intLatch

theorem Repeats.bus_eq {n k : Nat} (h : Repeats cpu bus op down n k) :
    (cpu.run bus k).2.2 = (items op down (cpu.core bus) k).bus := by
  obtain ⟨_, _, _, heq⟩ := h.alike
  exact congrArg Core.bus heq

theorem Repeats.exists_regs {n k : Nat} (h : Repeats cpu bus op down n k) :
    ∃ pc r wz, (cpu.run bus k).2.1.regs = { (items op down (cpu.core bus) k).regs with pc, r, wz } := by
  obtain ⟨pc, r, wz, heq⟩ := h.alike
  exact ⟨pc, r, wz, congrArg Core.regs heq⟩

theorem Repeats.othersSame {n k : Nat} (h : Repeats cpu bus op down n k) :
    cpu.regs.OthersSame (cpu.run bus k).2.1.regs := by
  obtain ⟨_, _, _, hregs⟩ := h.exists_regs
  refine (othersSame_items op down (cpu.core bus) k).trans ?_
  rw [hregs]
  rfl

/-- No interrupt gets in between two items. -/
theorem Repeats.beginning {n k : Nat} (h : Repeats cpu bus op down n k) (hquiet : cpu.Undisturbed n)
    (hk : k < n) : (cpu.run bus k).2.1.beginning = .fetch (cpu.run bus k).2.1.regs.pc := by
  refine beginning_eq_fetch (h.othersSame.halted_eq.trans hquiet.running) (h.nmi.trans hquiet.nmi)
    fun hlatch hiff => ?_
  have hlatch : cpu.intLatch = true := h.int ▸ hlatch
  have hiff : cpu.regs.iff1 = true := h.othersSame.iff1_eq ▸ hiff
  -- A pending interrupt that is not accepted is held off, which is over after the first step.
  have hint : ¬(cpu.shadow = true → 0 < k) := fun hshadow => hquiet.int k hk ⟨hlatch, hiff, hshadow⟩
  obtain ⟨hshadow, hzero⟩ := Classical.not_imp.mp hint
  obtain rfl : k = 0 := by omega
  exact hshadow

/-- **A repeating block instruction does one item a step** and stands at its first byte until it has
done the last one. -/
theorem repeats {n : Nat} (hpos : 0 < n) (hquiet : cpu.Undisturbed n)
    (hcode : ∀ k < n, HoldsBlock (items op down (cpu.core bus) k).bus cpu.regs.pc op down)
    (hmore : ∀ k < n, op.unfinished (items op down (cpu.core bus) (k + 1)).regs = decide (k + 1 < n)) {k : Nat}
    (hk : k ≤ n) : Repeats cpu bus op down n k := by
  induction k with
  | zero => exact ⟨rfl, (if_pos hpos).symm, ⟨_, _, _, rfl⟩, nofun, rfl, rfl⟩
  | succ k ih =>
    have ih : Repeats cpu bus op down n k := ih (by omega)
    have hlt : k < n := by omega
    have hpc : (cpu.run bus k).2.1.regs.pc = cpu.regs.pc := ih.pc.trans (if_pos hlt)
    have hholds : HoldsBlock (cpu.run bus k).2.2 (cpu.run bus k).2.1.regs.pc op down := by
      rw [hpc, ih.bus_eq]
      exact hcode k hlt
    obtain ⟨hcost, halike, hnext, hcpu⟩ := step_block (ih.beginning hquiet hlt) hholds
    obtain ⟨hitem, hsame⟩ := ih.alike.blockItem op down
    have hunfinished : (blockItem op down (items op down (cpu.core bus) k)).1 = decide (k + 1 < n) :=
      (blockItem_unfinished op down _).1.trans (hmore k hlt)
    rw [hitem, hunfinished] at hcost hnext
    simp only [decide_eq_true_eq] at hcost hnext
    refine ⟨?_, hnext.trans (by rw [hpc]), hsame.trans halike, fun _ => ?_, ?_, ?_⟩
    · show (cpu.run bus k).1 ++ [((cpu.run bus k).2.1.step (cpu.run bus k).2.2).1] = _
      rw [ih.costs, hcost, List.range_succ, List.map_append, List.map_singleton]
    · exact congrArg Cpu.shadow hcpu
    · exact (congrArg Cpu.nmiLatch hcpu).trans ih.nmi
    · exact (congrArg Cpu.intLatch hcpu).trans ih.int

theorem sum_costs (n : Nat) :
    ((List.range (n + 1)).map fun i => if i + 1 < n + 1 then 21 else 16).sum = 21 * n + 16 := by
  have hbefore : (List.range n).map (fun i => if i + 1 < n + 1 then 21 else 16) = List.replicate n 21 := by
    rw [List.eq_replicate_iff]
    simp only [List.length_map, List.length_range, List.mem_map, List.mem_range, true_and]
    rintro _ ⟨i, hi, rfl⟩
    exact if_pos (by omega)
  rw [List.range_succ, List.map_append, hbefore]
  simp
  omega

/-- Each item costs 21 T-states and the last one 16. -/
theorem Repeats.cost {n : Nat} (h : Repeats cpu bus op down n n) (hpos : 0 < n) :
    (cpu.run bus n).1.sum = 21 * (n - 1) + 16 := by
  obtain ⟨m, rfl⟩ : ∃ m, n = m + 1 := ⟨n - 1, by omega⟩
  rw [h.costs, sum_costs, Nat.add_sub_cancel]

end Cpu

end AmstradCpc
