/-
What the repeating block instructions come to on the plain bus: a copy is single bytes copied one
after the other, a search ends at the first byte that is looked for, and a transfer is one access to a
port for each item. Each of them is the run of `repeats`, so what is left to say is what the items
do, by induction on their number, and when the last of them is done.
-/
import AmstradCpc.Proofs.Cpu.Repeats

namespace AmstradCpc

/-! ## Bytes written one after the other -/

namespace FlatBus

theorem peek_poke (b : FlatBus) (a c : UInt16) (v : UInt8) :
    (b.poke a v).peek c = if c = a then v else b.peek c := by
  by_cases h : c = a
  · rw [if_pos h, h, peek_poke_self]
  · rw [if_neg h, peek_poke_other _ _ (Ne.symm h)]

theorem port_setPort (b : FlatBus) (p q : UInt16) (v : UInt8) :
    (b.setPort p v).port q = if q = p then v else b.port q := by
  by_cases h : q = p
  · rw [if_pos h, h]
    exact Block.get_set_self ..
  · rw [if_neg h]
    exact Block.get_set_other _ _ (toNat_lt_memory p) (toNat_lt_memory q) fun hp => h (UInt16.toNat_inj.1 hp.symm)

end FlatBus

/-- What is held at each address is what was before, but for one byte written. -/
def WrittenInTurn (held : Nat → UInt16 → UInt8) (place : Nat → UInt16) (byte : Nat → UInt8) : Prop :=
  ∀ k a, held (k + 1) a = if a = place k then byte k else held k a

namespace WrittenInTurn

variable {held : Nat → UInt16 → UInt8} {place : Nat → UInt16} {byte : Nat → UInt8}

/-- A place keeps its byte if all that is written there is the same. -/
theorem held_eq (h : WrittenInTurn held place byte) {k : Nat} {a : UInt16}
    (hsame : ∀ i < k, place i = a → byte i = held 0 a) : held k a = held 0 a := by
  induction k with
  | zero => rfl
  | succ k ih =>
    rw [h k a]
    split
    next hplace => exact hsame k (Nat.lt_succ_self k) hplace.symm
    next => exact ih fun i hi => hsame i (Nat.lt_succ_of_lt hi)

/-- A place that is written once holds what was written. -/
theorem held_place (h : WrittenInTurn held place byte) {i k : Nat} (hi : i < k)
    (honce : ∀ j < k, place j = place i → j = i) : held k (place i) = byte i := by
  induction k with
  | zero => omega
  | succ k ih =>
    rw [h k]
    split
    next hplace =>
      obtain rfl : k = i := honce k (Nat.lt_succ_self k) hplace.symm
      rfl
    next hplace =>
      have hne : i ≠ k := fun heq => hplace (congrArg place heq)
      exact ih (by omega) fun j hj => honce j (by omega)

end WrittenInTurn

namespace Cpu

/-- Of `n` bytes that are written, those before the last leave the instruction at `pc` as it is:
where one goes to a byte of it, that is what is there already. In particular none of them may go there
at all. After the last one the instruction is not fetched again. -/
def Spares (bus : FlatBus) (pc : UInt16) (n : Nat) (place : Nat → UInt16) (byte : Nat → UInt8) : Prop :=
  ∀ i, i + 1 < n → place i = pc ∨ place i = pc + 1 → byte i = bus.peek (place i)

theorem Spares.holdsBlock {memory : Nat → FlatBus} {place : Nat → UInt16} {byte : Nat → UInt8} {pc : UInt16}
    {n : Nat} (h : Spares (memory 0) pc n place byte)
    (hwritten : WrittenInTurn (fun k => (memory k).peek) place byte) {op : BlockOp} {down : Bool}
    (hcode : HoldsBlock (memory 0) pc op down) {k : Nat} (hk : k < n) : HoldsBlock (memory k) pc op down := by
  -- After fewer than `n` items, the last byte has not been written yet.
  have hkept : ∀ a, a = pc ∨ a = pc + 1 → (memory k).peek a = (memory 0).peek a := by
    intro a ha
    refine hwritten.held_eq fun i hi hplace => ?_
    subst hplace
    exact h i (by omega) ha
  exact ⟨(hkept pc (.inl rfl)).trans hcode.first, (hkept (pc + 1) (.inr rfl)).trans hcode.second⟩

end Cpu

/-! ## Copying -/

/-- Single bytes copied one after the other: the first from `source` to `target`, the next ones from
and to the places next to these. -/
def FlatBus.copyBytes (b : FlatBus) (down : Bool) (source target : UInt16) : Nat → FlatBus
  | 0 => b
  | k + 1 =>
    let b := b.copyBytes down source target k
    b.poke (along down target k) (b.peek (along down source k))

namespace Cpu

variable {cpu : Cpu} {bus : FlatBus} {op : BlockOp} {down : Bool} {n : Nat}

theorem writtenInTurn_copyBytes (bus : FlatBus) (down : Bool) (source target : UInt16) :
    WrittenInTurn (fun k => (bus.copyBytes down source target k).peek) (along down target)
      fun i => (bus.copyBytes down source target i).peek (along down source i) :=
  fun _ _ => FlatBus.peek_poke ..

/-- What `k` items of a copy come to. -/
structure Copied (down : Bool) (core : Core FlatBus) (k : Nat) (after : Core FlatBus) : Prop where
  bc : after.regs.bc = core.regs.bc - .ofNat k
  de : after.regs.de = along down core.regs.de k
  bus : after.bus = core.bus.copyBytes down core.regs.hl core.regs.de k
  sign : after.regs.f.sign = core.regs.f.sign
  zero : after.regs.f.zero = core.regs.f.zero
  carry : after.regs.f.carry = core.regs.f.carry
  half : 0 < k → after.regs.f.half = false
  subtract : 0 < k → after.regs.f.subtract = false
  parity : 0 < k → after.regs.f.parity = (after.regs.bc != 0)

theorem copied_items (down : Bool) (core : Core FlatBus) (k : Nat) :
    Copied down core k (items .copy down core k) := by
  induction k with
  | zero => exact ⟨(UInt16.sub_zero _).symm, (along_zero ..).symm, rfl, rfl, rfl, rfl, nofun, nofun, nofun⟩
  | succ k ih =>
    have hbc : (items .copy down core (k + 1)).regs.bc = (items .copy down core k).regs.bc - 1 :=
      joinBytes_halves _
    refine ⟨?_, ?_, ?_, ih.sign, ih.zero, ih.carry, fun _ => rfl, fun _ => rfl, fun _ => ?_⟩
    · rw [hbc, ih.bc, sub_ofNat16_succ]
    · rw [along_succ, ← ih.de]
      exact joinBytes_halves _
    · show (items .copy down core k).bus.poke _ _ = _
      rw [FlatBus.copyBytes, ← ih.bus, ← ih.de, ← hl_items .copy down core k]
    · rw [hbc]
      rfl

theorem repeats_copy (hn : n = if cpu.regs.bc = 0 then 65536 else cpu.regs.bc.toNat)
    (hcode : HoldsBlock bus cpu.regs.pc .copy down) (hquiet : cpu.Undisturbed n)
    (hspares : Spares bus cpu.regs.pc n (along down cpu.regs.de) fun i =>
      (bus.copyBytes down cpu.regs.hl cpu.regs.de i).peek (along down cpu.regs.hl i)) {k : Nat} (hk : k ≤ n) :
    Repeats cpu bus .copy down n k := by
  refine repeats (count16_pos hn) hquiet (fun i hi => ?_) (fun i hi => ?_) hk
  · rw [(copied_items down (cpu.core bus) i).bus]
    exact hspares.holdsBlock (writtenInTurn_copyBytes bus down cpu.regs.hl cpu.regs.de) hcode hi
  · have hbc : (items .copy down (cpu.core bus) (i + 1)).regs.bc = cpu.regs.bc - .ofNat (i + 1) :=
      (copied_items down (cpu.core bus) (i + 1)).bc
    have hend := sub_ofNat16_eq_zero_iff hn (Nat.succ_pos i) hi
    rw [BlockOp.unfinished, hbc, Bool.eq_iff_iff, bne_iff_ne, decide_eq_true_eq, ne_eq, hend]
    omega

/-- **A repeating copy copies bytes one after the other**, overlapping or not, and however far round
memory it goes. -/
theorem block_copied (hn : n = if cpu.regs.bc = 0 then 65536 else cpu.regs.bc.toNat)
    (hcode : HoldsBlock bus cpu.regs.pc .copy down) (hquiet : cpu.Undisturbed n)
    (hspares : Spares bus cpu.regs.pc n (along down cpu.regs.de) fun i =>
      (bus.copyBytes down cpu.regs.hl cpu.regs.de i).peek (along down cpu.regs.hl i)) :
    (∀ k ≤ n,
      let cpu' := (cpu.run bus k).2.1
      cpu'.regs.pc = (if k < n then cpu.regs.pc else cpu.regs.pc + 2) ∧
      cpu'.regs.bc = cpu.regs.bc - .ofNat k ∧
      cpu'.regs.hl = along down cpu.regs.hl k ∧ cpu'.regs.de = along down cpu.regs.de k ∧
      cpu.regs.OthersSame cpu'.regs ∧
      (cpu.run bus k).2.2 = bus.copyBytes down cpu.regs.hl cpu.regs.de k) ∧
    let f := cpu.regs.f
    let f' := (cpu.run bus n).2.1.regs.f
    (cpu.run bus n).2.1.regs.bc = 0 ∧
    (f'.parity = false ∧ f'.half = false ∧ f'.subtract = false) ∧
    (f'.sign = f.sign ∧ f'.zero = f.zero ∧ f'.carry = f.carry) ∧
    (∀ a, (∀ i < n, along down cpu.regs.de i ≠ a) → (cpu.run bus n).2.2.peek a = bus.peek a) ∧
    (cpu.run bus n).1.sum = 21 * (n - 1) + 16 := by
  have hrepeats {k : Nat} (hk : k ≤ n) := repeats_copy hn hcode hquiet hspares hk
  have hpos := count16_pos hn
  have hitems := copied_items down (cpu.core bus)
  refine ⟨fun k hk => ?_, ?_⟩
  · obtain ⟨_, _, _, hregs⟩ := (hrepeats hk).exists_regs
    refine ⟨(hrepeats hk).pc, ?_, ?_, ?_, (hrepeats hk).othersSame, ?_⟩
    · rw [hregs]
      exact (hitems k).bc
    · rw [hregs]
      exact hl_items .copy down (cpu.core bus) k
    · rw [hregs]
      exact (hitems k).de
    · rw [(hrepeats hk).bus_eq]
      exact (hitems k).bus
  · obtain ⟨_, _, _, hregs⟩ := (hrepeats (Nat.le_refl n)).exists_regs
    have hbc : (items .copy down (cpu.core bus) n).regs.bc = 0 := by
      rw [(hitems n).bc]
      exact (sub_ofNat16_eq_zero_iff hn hpos (Nat.le_refl n)).mpr rfl
    have hparity := (hitems n).parity hpos
    rw [hbc] at hparity
    refine ⟨hregs ▸ hbc, ?_, ?_, fun a ha => ?_, (hrepeats (Nat.le_refl n)).cost hpos⟩
    · rw [hregs]
      exact ⟨hparity, (hitems n).half hpos, (hitems n).subtract hpos⟩
    · rw [hregs]
      exact ⟨(hitems n).sign, (hitems n).zero, (hitems n).carry⟩
    · rw [(hrepeats (Nat.le_refl n)).bus_eq, (hitems n).bus]
      have hwritten := writtenInTurn_copyBytes bus down cpu.regs.hl cpu.regs.de
      exact hwritten.held_eq fun i hi hplace => absurd hplace (ha i hi)

/-- Memory holds a repeating block instruction, and `v` at `a`. -/
def repeating (op : BlockOp) (down : Bool) (a : UInt16) (v : UInt8) : FlatBus :=
  ((FlatBus.empty.poke 0x8000 0xED).poke 0x8001 (op.opcode down)).poke a v

theorem peek_repeating (op : BlockOp) (down : Bool) (a : UInt16) (v : UInt8) {c : UInt16}
    (h : c ≠ 0x8000 ∧ c ≠ 0x8001) : (repeating op down a v).peek c = if c = a then v else 0 := by
  rw [repeating, FlatBus.peek_poke, FlatBus.peek_poke, if_neg h.2, FlatBus.peek_poke, if_neg h.1]
  exact congrArg (ite (c = a) v) (Block.get_fill ..)

theorem port_repeating (op : BlockOp) (down : Bool) (a : UInt16) (v : UInt8) (p : UInt16) :
    (repeating op down a v).port p = 0xFF :=
  Block.get_fill ..

theorem holdsBlock_repeating (op : BlockOp) (down : Bool) {a : UInt16} (v : UInt8)
    (h : a ≠ 0x8000 ∧ a ≠ 0x8001) : HoldsBlock (repeating op down a v) 0x8000 op down where
  first := by
    rw [repeating, FlatBus.peek_poke_other _ _ h.1, FlatBus.peek_poke_other _ _ (by decide),
      FlatBus.peek_poke_self]
  second := (FlatBus.peek_poke_other _ _ h.2).trans (FlatBus.peek_poke_self ..)

/-- The processor at that instruction. -/
def repeater (bc de hl : UInt16) : Cpu :=
  { initial with regs := { ((Registers.initial.setBC bc).setDE de).setHL hl with pc := 0x8000 } }

theorem undisturbed_repeater (bc de hl : UInt16) (n : Nat) : (repeater bc de hl).Undisturbed n :=
  ⟨rfl, rfl, fun _ _ h => nomatch h.1⟩

/-- A byte at the top of memory but one is copied to the place above it, and from there on, round to
the bottom of memory. -/
theorem block_copied_overlap :
    let after := (repeater 3 0xFFFF 0xFFFE).run (repeating .copy false 0xFFFE 0x55) 3
    after.1.sum = 58 ∧ after.2.1.regs.pc = 0x8002 ∧ after.2.1.regs.bc = 0 ∧
      after.2.2.peek 0xFFFF = 0x55 ∧ after.2.2.peek 0x0000 = 0x55 ∧ after.2.2.peek 0x0001 = 0x55 := by
  have hhl : (repeater 3 0xFFFF 0xFFFE).regs.hl = 0xFFFE := by decide
  have hde : (repeater 3 0xFFFF 0xFFFE).regs.de = 0xFFFF := by decide
  have hbyte : (repeating .copy false 0xFFFE 0x55).peek 0xFFFE = 0x55 := FlatBus.peek_poke_self ..
  have hclear : ∀ i < 3, let r := (repeater 3 0xFFFF 0xFFFE).regs
      ¬(along false r.de i = r.pc ∨ along false r.de i = r.pc + 1) := by decide
  have hcode : HoldsBlock (repeating .copy false 0xFFFE 0x55) (repeater 3 0xFFFF 0xFFFE).regs.pc .copy false :=
    holdsBlock_repeating .copy false 0x55 (by decide)
  have hcopied := block_copied (n := 3) (by decide) hcode (undisturbed_repeater 3 0xFFFF 0xFFFE 3)
    fun i hi hplace => absurd hplace (hclear i (by omega))
  obtain ⟨hsteps, hbc, -, -, -, hcost⟩ := hcopied
  obtain ⟨hpc, -, -, -, -, hbus⟩ := hsteps 3 (Nat.le_refl 3)
  refine ⟨hcost, hpc.trans (by decide), hbc, ?_⟩
  rw [hbus, hhl, hde]
  simp [FlatBus.copyBytes, FlatBus.peek_poke, along, hbyte]

/-! ## Searching -/

/-- What `k` items of a search come to. -/
structure Searched (down : Bool) (core : Core FlatBus) (k : Nat) (after : Core FlatBus) : Prop where
  bc : after.regs.bc = core.regs.bc - .ofNat k
  de : after.regs.de = core.regs.de
  bus : after.bus = core.bus
  carry : after.regs.f.carry = core.regs.f.carry

theorem searched_items (down : Bool) (core : Core FlatBus) (k : Nat) :
    Searched down core k (items .compare down core k) := by
  induction k with
  | zero => exact ⟨(UInt16.sub_zero _).symm, rfl, rfl, rfl⟩
  | succ k ih =>
    have hbc : (items .compare down core (k + 1)).regs.bc = (items .compare down core k).regs.bc - 1 :=
      joinBytes_halves _
    exact ⟨by rw [hbc, ih.bc, sub_ofNat16_succ], ih.de, ih.bus, ih.carry⟩

/-- The flags are those of the last comparison. -/
theorem searchFlags_items (down : Bool) (core : Core FlatBus) (k : Nat) :
    let f := (items .compare down core (k + 1)).regs.f
    f.zero = (core.bus.peek (along down core.regs.hl k) == core.regs.a) ∧
      f.parity = ((items .compare down core (k + 1)).regs.bc != 0) := by
  let v := core.bus.peek (along down core.regs.hl k)
  have hbyte : (items .compare down core k).bus.peek (items .compare down core k).regs.hl = v := by
    rw [(searched_items down core k).bus, hl_items]
  have ha : (items .compare down core k).regs.a = core.regs.a :=
    (othersSame_items .compare down core k).a_eq
  have hbc : (items .compare down core (k + 1)).regs.bc = (items .compare down core k).regs.bc - 1 :=
    joinBytes_halves _
  have hf : (items .compare down core (k + 1)).regs.f =
      searchFlags core.regs.a v ((items .compare down core k).regs.bc - 1 != 0)
        (items .compare down core k).regs.f := by
    rw [← ha, ← hbyte]
    rfl
  rw [hf, hbc]
  refine ⟨?_, rfl⟩
  show (core.regs.a - v - 0 == 0) = (v == core.regs.a)
  rw [UInt8.sub_zero, Bool.eq_iff_iff, beq_iff_eq, beq_iff_eq, UInt8.sub_eq_iff_eq_add, UInt8.zero_add]
  exact eq_comm

/-- Where a search of `n` bytes ends. -/
theorem searchEnd_cases {p : Nat → Bool} {n k : Nat} (hpos : 0 < n)
    (hk : k = ((List.range n).find? p).getD (n - 1)) :
    k < n ∧ (∀ j < k, p j = false) ∧ (p k = true ∨ k + 1 = n) := by
  cases hfind : (List.range n).find? p with
  | none =>
    rw [hfind, Option.getD_none] at hk
    simp only [List.find?_range_eq_none, Bool.not_eq_true'] at hfind
    exact ⟨by omega, fun j hj => hfind j (by omega), .inr (by omega)⟩
  | some i =>
    rw [hfind, Option.getD_some] at hk
    subst hk
    simp only [List.find?_range_eq_some, List.mem_range, Bool.not_eq_true'] at hfind
    exact ⟨hfind.2.1, hfind.2.2, .inl hfind.1⟩

/-- **A repeating search ends at the first byte that is the accumulator**, or at the last one. The
flags are those of the last comparison, also where the count runs out with a match. -/
theorem search_ends {k : Nat} (hn : n = if cpu.regs.bc = 0 then 65536 else cpu.regs.bc.toNat)
    (hk : k = ((List.range n).find? fun i => bus.peek (along down cpu.regs.hl i) == cpu.regs.a).getD (n - 1))
    (hcode : HoldsBlock bus cpu.regs.pc .compare down) (hquiet : cpu.Undisturbed (k + 1)) :
    (∀ j ≤ k, (cpu.run bus j).2.1.regs.pc = cpu.regs.pc) ∧
    let cpu' := (cpu.run bus (k + 1)).2.1
    let f := cpu.regs.f
    let f' := cpu'.regs.f
    cpu'.regs.pc = cpu.regs.pc + 2 ∧
    cpu'.regs.hl = along down cpu.regs.hl (k + 1) ∧ cpu'.regs.bc = cpu.regs.bc - .ofNat (k + 1) ∧
    (f'.zero = true ↔ bus.peek (along down cpu.regs.hl k) = cpu.regs.a) ∧
    (f'.parity = true ↔ cpu'.regs.bc ≠ 0) ∧ f'.carry = f.carry ∧
    cpu'.regs.a = cpu.regs.a ∧ cpu'.regs.de = cpu.regs.de ∧ cpu.regs.OthersSame cpu'.regs ∧
    (cpu.run bus (k + 1)).2.2 = bus ∧
    (cpu.run bus (k + 1)).1.sum = 21 * k + 16 := by
  obtain ⟨hlt, hbefore, hlast⟩ := searchEnd_cases (count16_pos hn) hk
  have hitems := searched_items down (cpu.core bus)
  have hflags := searchFlags_items down (cpu.core bus)
  have hrepeats {j : Nat} (hj : j ≤ k + 1) : Repeats cpu bus .compare down (k + 1) j := by
    refine repeats (Nat.succ_pos k) hquiet (fun i _ => ?_) (fun i hi => ?_) hj
    · rw [(hitems i).bus]
      exact hcode
    · -- Before the end there is neither a match nor a count of zero, and at the end one of the two.
      have hend := sub_ofNat16_eq_zero_iff hn (Nat.succ_pos i) (show i + 1 ≤ n by omega)
      have hmatch := hbefore i
      rw [BlockOp.unfinished, (hitems (i + 1)).bc, (hflags i).1, Bool.eq_iff_iff, Bool.and_eq_true, bne_iff_ne,
        Bool.not_eq_true', decide_eq_true_eq, ne_eq]
      show ¬cpu.regs.bc - .ofNat (i + 1) = 0 ∧ (bus.peek (along down cpu.regs.hl i) == cpu.regs.a) = false ↔ _
      rw [hend]
      constructor
      · rintro ⟨hcount, hno⟩
        refine Nat.succ_lt_succ (Nat.lt_of_le_of_ne (Nat.le_of_lt_succ hi) fun heq => ?_)
        subst heq
        rcases hlast with hyes | hcount'
        · rw [hno] at hyes
          cases hyes
        · exact hcount hcount'
      · intro hbelow
        exact ⟨by omega, hmatch (by omega)⟩
  have hend := hrepeats (Nat.le_refl (k + 1))
  obtain ⟨_, _, _, hregs⟩ := hend.exists_regs
  refine ⟨fun j hj => (hrepeats (by omega)).pc.trans (if_pos (by omega)), hend.pc.trans (if_neg (by omega)),
    ?_, ?_, ?_, ?_, ?_, hend.othersSame.a_eq, ?_, hend.othersSame, hend.bus_eq.trans (hitems (k + 1)).bus,
    hend.cost (Nat.succ_pos k)⟩
  · rw [hregs]
    exact hl_items .compare down (cpu.core bus) (k + 1)
  · rw [hregs]
    exact (hitems (k + 1)).bc
  · rw [hregs, (hflags k).1, beq_iff_eq]
    rfl
  · rw [hregs, (hflags k).2, bne_iff_ne]
    rfl
  · rw [hregs]
    exact (hitems (k + 1)).carry
  · rw [hregs]
    exact (hitems (k + 1)).de

/-- The byte that is looked for is the last one, found as the count runs out. -/
theorem search_ends_last :
    let after := (repeater 2 0 0xFFFF).run (repeating .compare false 0x0000 0xFF) 2
    after.1.sum = 37 ∧ after.2.1.regs.pc = 0x8002 ∧ after.2.1.regs.hl = 1 ∧ after.2.1.regs.f.zero = true ∧
      after.2.1.regs.f.parity = false ∧ after.2.2 = repeating .compare false 0x0000 0xFF := by
  have hhl : (repeater 2 0 0xFFFF).regs.hl = 0xFFFF := by decide
  have ha : (repeater 2 0 0xFFFF).regs.a = 0xFF := rfl
  have hother : (repeating .compare false 0x0000 0xFF).peek 0xFFFF = 0 :=
    peek_repeating .compare false 0 0xFF (by decide)
  have hbyte : (repeating .compare false 0x0000 0xFF).peek 0x0000 = 0xFF :=
    peek_repeating .compare false 0 0xFF (by decide)
  have hcode : HoldsBlock (repeating .compare false 0x0000 0xFF) (repeater 2 0 0xFFFF).regs.pc .compare false :=
    holdsBlock_repeating .compare false 0xFF (by decide)
  have hk : 1 = ((List.range 2).find? fun i => (repeating .compare false 0x0000 0xFF).peek
      (along false (repeater 2 0 0xFFFF).regs.hl i) == (repeater 2 0 0xFFFF).regs.a).getD (2 - 1) := by
    rw [hhl, ha]
    simp [List.range_succ, along, hother, hbyte]
  have hends := search_ends (n := 2) (by decide) hk hcode (undisturbed_repeater 2 0 0xFFFF 2)
  simp only [Nat.reduceAdd, Nat.reduceMul] at hends
  obtain ⟨-, hpc, hhl', hbc, hzero, hparity, -, -, -, -, hbus, hcost⟩ := hends
  refine ⟨hcost, hpc.trans (by decide), hhl'.trans ?_, hzero.mpr ?_, ?_, hbus⟩
  · rw [hhl]
    decide
  · rw [hhl]
    exact hbyte
  · rw [← Bool.not_eq_true, hparity, hbc]
    decide

/-! ## Transferring -/

/-- What is read from a port for the item numbered `i`. -/
def inputAccess (r : Registers) (bus : FlatBus) (i : Nat) : PortAccess :=
  let port := joinBytes (r.b - .ofNat i) r.c
  ⟨port, bus.port port, false⟩

/-- What is written to a port for the item numbered `i`. The counter goes down before. -/
def outputAccess (down : Bool) (r : Registers) (bus : FlatBus) (i : Nat) : PortAccess :=
  ⟨joinBytes (r.b - 1 - .ofNat i) r.c, bus.peek (along down r.hl i), true⟩

/-- What `k` items of a transfer come to, in either direction. -/
structure Transferred (access : Nat → PortAccess) (core : Core FlatBus) (k : Nat) (after : Core FlatBus) :
    Prop where
  b : after.regs.b = core.regs.b - .ofNat k
  c : after.regs.c = core.regs.c
  zero : 0 < k → after.regs.f.zero = (after.regs.b == 0)
  traffic : after.bus.traffic.toList = core.bus.traffic.toList ++ (List.range k).map access

/-- One item is one access, at a counter that is one less afterwards. -/
theorem Transferred.next {access : Nat → PortAccess} {core before after : Core FlatBus} {k : Nat}
    (h : Transferred access core k before) (hb : after.regs.b = before.regs.b - 1)
    (hc : after.regs.c = before.regs.c) (hzero : after.regs.f.zero = (after.regs.b == 0))
    (htraffic : after.bus.traffic = before.bus.traffic.push (access k)) :
    Transferred access core (k + 1) after := by
  refine ⟨by rw [hb, h.b, sub_ofNat8_succ], hc.trans h.c, fun _ => hzero, ?_⟩
  rw [htraffic, Array.toList_push, h.traffic, List.append_assoc, List.range_succ, List.map_append,
    List.map_singleton]

theorem ports_inputItems (down : Bool) (core : Core FlatBus) (k : Nat) :
    (items .input down core k).bus.ports = core.bus.ports := by
  induction k with
  | zero => rfl
  | succ k ih => exact ih

theorem memory_outputItems (down : Bool) (core : Core FlatBus) (k : Nat) :
    (items .output down core k).bus.memory = core.bus.memory := by
  induction k with
  | zero => rfl
  | succ k ih => exact ih

/-- The item numbered `k` makes the access numbered `k`. -/
theorem inputAccess_eq {access : Nat → PortAccess} {core : Core FlatBus} {k : Nat}
    (h : Transferred access core k (items .input down core k)) :
    let before := items .input down core k
    inputAccess core.regs core.bus k = ⟨before.regs.bc, before.bus.port before.regs.bc, false⟩ := by
  intro before
  have hports : before.bus.ports = core.bus.ports := ports_inputItems down core k
  have hport : before.regs.bc = joinBytes (core.regs.b - .ofNat k) core.regs.c := by
    show joinBytes before.regs.b before.regs.c = _
    rw [h.b, h.c]
  rw [hport, FlatBus.port, hports]
  rfl

theorem outputAccess_eq {access : Nat → PortAccess} {core : Core FlatBus} {k : Nat}
    (h : Transferred access core k (items .output down core k)) :
    let before := items .output down core k
    outputAccess down core.regs core.bus k =
      ⟨joinBytes (before.regs.b - 1) before.regs.c, before.bus.peek before.regs.hl, true⟩ := by
  intro before
  have hmemory : before.bus.memory = core.bus.memory := memory_outputItems down core k
  have hport :
      joinBytes (before.regs.b - 1) before.regs.c = joinBytes (core.regs.b - 1 - .ofNat k) core.regs.c := by
    have hb : core.regs.b - .ofNat k - 1 = core.regs.b - 1 - .ofNat k := by grind
    rw [h.b, h.c, hb]
  rw [hport, hl_items, FlatBus.peek, hmemory]
  rfl

theorem transferred_inputItems (down : Bool) (core : Core FlatBus) (k : Nat) :
    Transferred (inputAccess core.regs core.bus) core k (items .input down core k) := by
  induction k with
  | zero => exact ⟨(UInt8.sub_zero _).symm, rfl, nofun, (List.append_nil _).symm⟩
  | succ k ih =>
    refine ih.next rfl rfl rfl ?_
    rw [inputAccess_eq ih]
    rfl

theorem transferred_outputItems (down : Bool) (core : Core FlatBus) (k : Nat) :
    Transferred (outputAccess down core.regs core.bus) core k (items .output down core k) := by
  induction k with
  | zero => exact ⟨(UInt8.sub_zero _).symm, rfl, nofun, (List.append_nil _).symm⟩
  | succ k ih =>
    refine ih.next rfl rfl rfl ?_
    rw [outputAccess_eq ih]
    rfl

theorem writtenInTurn_inputItems (down : Bool) (core : Core FlatBus) :
    WrittenInTurn (fun k => (items .input down core k).bus.peek) (along down core.regs.hl)
      fun i => (inputAccess core.regs core.bus i).value := by
  intro k a
  simp only [inputAccess_eq (transferred_inputItems down core k), ← hl_items .input down core k]
  exact FlatBus.peek_poke ..

theorem writtenInTurn_outputItems (down : Bool) (core : Core FlatBus) :
    WrittenInTurn (fun k => (items .output down core k).bus.port)
      (fun i => (outputAccess down core.regs core.bus i).port)
      fun i => (outputAccess down core.regs core.bus i).value := by
  intro k p
  simp only [outputAccess_eq (transferred_outputItems down core k)]
  exact FlatBus.port_setPort ..

/-- A repeating transfer of `n` items is `n` steps, and the step numbered `i` makes the access numbered
`i`, and no other. -/
structure Transfers (cpu : Cpu) (bus : FlatBus) (down : Bool) (n : Nat) (access : Nat → PortAccess) :
    Prop where
  pc : ∀ k ≤ n, (cpu.run bus k).2.1.regs.pc = if k < n then cpu.regs.pc else cpu.regs.pc + 2
  traffic : ∀ k ≤ n, (cpu.run bus k).2.2.traffic.toList = bus.traffic.toList ++ (List.range k).map access
  b : (cpu.run bus n).2.1.regs.b = 0
  zero : (cpu.run bus n).2.1.regs.f.zero = true
  c : (cpu.run bus n).2.1.regs.c = cpu.regs.c
  hl : (cpu.run bus n).2.1.regs.hl = along down cpu.regs.hl n
  others : cpu.regs.OthersSame (cpu.run bus n).2.1.regs
  cost : (cpu.run bus n).1.sum = 21 * (n - 1) + 16

theorem transfers (hn : n = if cpu.regs.b = 0 then 256 else cpu.regs.b.toNat) {access : Nat → PortAccess}
    (hitems : ∀ k, Transferred access (cpu.core bus) k (items op down (cpu.core bus) k))
    (hrepeats : ∀ k ≤ n, Repeats cpu bus op down n k) : Transfers cpu bus down n access := by
  have hpos := count8_pos hn
  have hend := hrepeats n (Nat.le_refl n)
  obtain ⟨_, _, _, hregs⟩ := hend.exists_regs
  have hb : (items op down (cpu.core bus) n).regs.b = 0 := by
    rw [(hitems n).b]
    exact (sub_ofNat8_eq_zero_iff hn hpos (Nat.le_refl n)).mpr rfl
  refine ⟨fun k hk => (hrepeats k hk).pc, fun k hk => ?_, ?_, ?_, ?_, ?_, hend.othersSame, hend.cost hpos⟩
  · rw [(hrepeats k hk).bus_eq]
    exact (hitems k).traffic
  · rw [hregs]
    exact hb
  · rw [hregs, (hitems n).zero hpos, hb]
    rfl
  · rw [hregs]
    exact (hitems n).c
  · rw [hregs]
    exact hl_items op down (cpu.core bus) n

/-- There is more to do until the counter has come to zero. -/
theorem repeats_transfer (hn : n = if cpu.regs.b = 0 then 256 else cpu.regs.b.toNat)
    (hquiet : cpu.Undisturbed n) {access : Nat → PortAccess} (hop : ∀ r, op.unfinished r = (r.b != 0))
    (hitems : ∀ k, Transferred access (cpu.core bus) k (items op down (cpu.core bus) k))
    (hcode : ∀ k < n, HoldsBlock (items op down (cpu.core bus) k).bus cpu.regs.pc op down) {k : Nat}
    (hk : k ≤ n) : Repeats cpu bus op down n k := by
  refine repeats (count8_pos hn) hquiet hcode (fun i hi => ?_) hk
  have hb : (items op down (cpu.core bus) (i + 1)).regs.b = cpu.regs.b - .ofNat (i + 1) := (hitems (i + 1)).b
  have hend := sub_ofNat8_eq_zero_iff hn (Nat.succ_pos i) hi
  rw [hop, hb, Bool.eq_iff_iff, bne_iff_ne, decide_eq_true_eq, ne_eq, hend]
  omega

/-- **A repeating transfer goes through the counter**, from its value downwards when reading from ports
and from one less when writing to them, and with each item one place on in memory. -/
theorem block_transferred (hn : n = if cpu.regs.b = 0 then 256 else cpu.regs.b.toNat)
    (hquiet : cpu.Undisturbed n) :
    let bus' := (cpu.run bus n).2.2
    (HoldsBlock bus cpu.regs.pc .input down →
      Spares bus cpu.regs.pc n (along down cpu.regs.hl) (fun i => (inputAccess cpu.regs bus i).value) →
      Transfers cpu bus down n (inputAccess cpu.regs bus) ∧ bus'.ports = bus.ports ∧
      (∀ i < n, bus'.peek (along down cpu.regs.hl i) = (inputAccess cpu.regs bus i).value) ∧
      ∀ a, (∀ i < n, along down cpu.regs.hl i ≠ a) → bus'.peek a = bus.peek a) ∧
    (HoldsBlock bus cpu.regs.pc .output down →
      Transfers cpu bus down n (outputAccess down cpu.regs bus) ∧ bus'.memory = bus.memory ∧
      (∀ i < n, let access := outputAccess down cpu.regs bus i
        bus'.port access.port = access.value) ∧
      ∀ p, (∀ i < n, (outputAccess down cpu.regs bus i).port ≠ p) → bus'.port p = bus.port p) := by
  have hle := count8_le hn
  refine ⟨fun hcode hspares => ?_, fun hcode => ?_⟩
  · have hitems := transferred_inputItems down (cpu.core bus)
    have hwritten := writtenInTurn_inputItems down (cpu.core bus)
    have hrepeats := fun k (hk : k ≤ n) =>
      repeats_transfer hn hquiet (fun _ => rfl) hitems (fun i hi => hspares.holdsBlock hwritten hcode hi) hk
    rw [(hrepeats n (Nat.le_refl n)).bus_eq]
    refine ⟨transfers hn hitems hrepeats, ports_inputItems .., fun i hi => ?_, fun a ha => ?_⟩
    · exact hwritten.held_place hi fun j hj => along_injective (by omega) (by omega)
    · exact hwritten.held_eq fun i hi hplace => absurd hplace (ha i hi)
  · have hitems := transferred_outputItems down (cpu.core bus)
    have hwritten := writtenInTurn_outputItems down (cpu.core bus)
    have hmemory := memory_outputItems down (cpu.core bus)
    have hkept : ∀ k, HoldsBlock (items .output down (cpu.core bus) k).bus cpu.regs.pc .output down := by
      intro k
      constructor
      · rw [FlatBus.peek, hmemory k]
        exact hcode.first
      · rw [FlatBus.peek, hmemory k]
        exact hcode.second
    have hrepeats := fun k (hk : k ≤ n) =>
      repeats_transfer hn hquiet (fun _ => rfl) hitems (fun i _ => hkept i) hk
    rw [(hrepeats n (Nat.le_refl n)).bus_eq]
    refine ⟨transfers hn hitems hrepeats, hmemory n, fun i hi => ?_, fun p hp => ?_⟩
    · -- Every counter is another port, as there are no more of them than a byte can tell apart.
      refine hwritten.held_place hi fun j hj hport => ?_
      have hbyte := congrArg highByte hport
      simp only [outputAccess, highByte_joinBytes] at hbyte
      exact sub_ofNat8_injective (by omega) (by omega) hbyte
    · exact hwritten.held_eq fun i hi hplace => absurd hplace (hp i hi)

/-- Two bytes are read from the ports 0x0210 and 0x0110 to the bottom of memory and, downwards, to its
top, and two are written to the ports 0x0110 and 0x0010. -/
theorem block_transferred_two :
    (let after := (repeater 0x0210 0 0).run (repeating .input true 0x4000 0x55) 2
    after.1.sum = 37 ∧ after.2.1.regs.pc = 0x8002 ∧ after.2.1.regs.bc = 0x0010 ∧
      after.2.2.traffic.toList = [⟨0x0210, 0xFF, false⟩, ⟨0x0110, 0xFF, false⟩] ∧
      after.2.2.peek 0x0000 = 0xFF ∧ after.2.2.peek 0xFFFF = 0xFF) ∧
    let after := (repeater 0x0210 0 0x4000).run (repeating .output false 0x4000 0x55) 2
    after.1.sum = 37 ∧ after.2.1.regs.pc = 0x8002 ∧ after.2.1.regs.bc = 0x0010 ∧
      after.2.2.traffic.toList = [⟨0x0110, 0x55, true⟩, ⟨0x0010, 0x00, true⟩] ∧
      after.2.2.port 0x0110 = 0x55 ∧ after.2.2.port 0x0010 = 0x00 := by
  constructor
  · have hclear : ∀ i < 2, let r := (repeater 0x0210 0 0).regs
        ¬(along true r.hl i = r.pc ∨ along true r.hl i = r.pc + 1) := by decide
    have hcode : HoldsBlock (repeating .input true 0x4000 0x55) (repeater 0x0210 0 0).regs.pc .input true :=
      holdsBlock_repeating .input true 0x55 (by decide)
    obtain ⟨htransfers, -, hbytes, -⟩ := (block_transferred (n := 2) (by decide)
      (undisturbed_repeater 0x0210 0 0 2)).1 hcode fun i hi hplace => absurd hplace (hclear i (by omega))
    have haccess (i : Nat) : inputAccess (repeater 0x0210 0 0).regs (repeating .input true 0x4000 0x55) i =
        ⟨joinBytes (2 - .ofNat i) 0x10, 0xFF, false⟩ := by
      rw [inputAccess, port_repeating]
      rfl
    refine ⟨htransfers.cost, (htransfers.pc 2 (Nat.le_refl 2)).trans (by decide), ?_, ?_, ?_, ?_⟩
    · rw [Registers.bc, htransfers.b, htransfers.c]
      decide
    · rw [htransfers.traffic 2 (Nat.le_refl 2), List.map_congr_left fun i _ => haccess i]
      decide
    · have hfirst := hbytes 0 (by decide)
      rw [haccess] at hfirst
      exact hfirst
    · have hsecond := hbytes 1 (by decide)
      rw [haccess] at hsecond
      exact hsecond
  · have hcode :
        HoldsBlock (repeating .output false 0x4000 0x55) (repeater 0x0210 0 0x4000).regs.pc .output false :=
      holdsBlock_repeating .output false 0x55 (by decide)
    obtain ⟨htransfers, -, hports, -⟩ :=
      (block_transferred (n := 2) (by decide) (undisturbed_repeater 0x0210 0 0x4000 2)).2 hcode
    have hfirst : outputAccess false (repeater 0x0210 0 0x4000).regs (repeating .output false 0x4000 0x55) 0 =
        ⟨0x0110, 0x55, true⟩ :=
      congrArg (PortAccess.mk 0x0110 · true) (peek_repeating .output false 0x4000 0x55 (by decide))
    have hsecond : outputAccess false (repeater 0x0210 0 0x4000).regs (repeating .output false 0x4000 0x55) 1 =
        ⟨0x0010, 0x00, true⟩ :=
      congrArg (PortAccess.mk 0x0010 · true) (peek_repeating .output false 0x4000 0x55 (by decide))
    refine ⟨htransfers.cost, (htransfers.pc 2 (Nat.le_refl 2)).trans (by decide), ?_, ?_, ?_, ?_⟩
    · rw [Registers.bc, htransfers.b, htransfers.c]
      decide
    · rw [htransfers.traffic 2 (Nat.le_refl 2), List.range_succ, List.range_succ, List.range_zero]
      simp only [List.nil_append, List.map_append, List.map_singleton, hfirst, hsecond]
      rfl
    · have hheld := hports 0 (by decide)
      rw [hfirst] at hheld
      exact hheld
    · have hheld := hports 1 (by decide)
      rw [hsecond] at hheld
      exact hheld

end Cpu

end AmstradCpc
