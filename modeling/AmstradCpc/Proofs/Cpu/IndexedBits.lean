/-
The shifts and single bits have two forms in memory, and they are carried out apart: one at HL, whose
undocumented flags come from the address latch, and one at an index register and a displacement, which
also puts its result into a register. `indexed_bits_agree` says that the second form is the first one at
the address that the displacement leads to, and what it does besides.
-/
import AmstradCpc.Proofs.Cpu.IndexPrefix

namespace AmstradCpc

namespace Cpu

/-! ## Opcodes -/

/-- The form with HL of an opcode with the same operation. -/
def hlForm (op : UInt8) : UInt8 := (op &&& 0xF8) + 6

theorem decode_hlForm : ∀ op, BitOp.decode (hlForm op) = BitOp.decode op := forall_byte (by decide +kernel)

theorem operand_hlForm : ∀ op, Operand.ofBits (lowBits (hlForm op)) = .mem := forall_byte (by decide +kernel)

def BitOp.isTest : BitOp → Bool
  | .test _ => true
  | _ => false

theorem isTest_decode : ∀ op, (BitOp.decode op).isTest = decide (op &&& 0xC0 = 0x40) :=
  forall_byte (by decide +kernel)

/-- Only a test has no result. -/
theorem isNone_apply (op : BitOp) (v xy : UInt8) (f : Flags) : (op.apply v xy f).1.isNone = op.isTest := by
  cases op <;> rfl

/-! ## The two forms -/

section Forms

variable {β : Type} [Bus β]

open Exec

/-- The operand is read, and a result goes back there. -/
def operandCycles (a : UInt16) (result : Option UInt8) : List Cycle :=
  .read a :: (result.map (Cycle.write a)).toList

/-- A result goes to the register that the opcode names, which is H or L itself. Of the eight, 6 is none. -/
def Registers.copyResult (r : Registers) (op : UInt8) : Option UInt8 → Registers
  | some v => if op &&& 7 = 6 then r else r.setPlain v (.ofBits (op &&& 7))
  | none => r

theorem Registers.f_copyResult (r : Registers) (op : UInt8) (result : Option UInt8) :
    (r.copyResult op result).f = r.f := by
  cases result with
  | none => rfl
  | some v =>
    rw [copyResult]
    split
    · rfl
    · cases Reg8.ofBits (op &&& 7) <;> rfl

variable {core : Core β} {a : UInt16} {op : UInt8} {result : Option UInt8} {f : Flags}

theorem executeBits_hlForm (hhl : core.regs.hl = a) (hwz : core.regs.wz = a)
    (happly : (BitOp.decode op).apply (Bus.read core.bus a).1 (highByte a) core.regs.f = (result, f)) :
    executeBits (hlForm op) core = (if result.isSome then 15 else 12,
      ⟨{ core.regs with f }, core.shadow, Cycle.runAll core.bus (operandCycles a result)⟩) := by
  have hform : executeBits (hlForm op) core =
      let outcome := (BitOp.decode op).apply (Bus.read core.bus core.regs.hl).1 (highByte core.regs.wz) core.regs.f
      (if outcome.1.isSome then 15 else 12, ⟨{ core.regs with f := outcome.2 }, core.shadow,
        Cycle.runAll core.bus (operandCycles core.regs.hl outcome.1)⟩) := by
    rw [executeBits, operand_hlForm, decode_hlForm]
    cases BitOp.decode op <;> rfl
  rw [hform, hhl, congrArg highByte hwz, happly]

theorem operandAddress_displaced {idx : IndexReg} (hidx : idx ≠ .hl) (core : Core β) :
    operandAddress idx core =
      let (d, bus) := Bus.read core.bus core.regs.pc
      let a := core.regs.index idx + d.toInt8.toInt16.toUInt16
      (a, ⟨{ core.regs with pc := core.regs.pc + 1, wz := a }, core.shadow, bus⟩) := by
  simp only [← signExtend_eq]
  cases idx with
  | hl => exact absurd rfl hidx
  | ix | iy => rfl

/-- Displacement and opcode come first, and then it does not matter where the address has come from. -/
theorem executeIndexedBits_eq {idx : IndexReg} (hidx : idx ≠ .hl) {d : UInt8} {bus1 bus2 : β}
    (hd : Bus.read core.bus core.regs.pc = (d, bus1)) (hop : Bus.read bus1 (core.regs.pc + 1) = (op, bus2))
    (ha : core.regs.index idx + d.toInt8.toInt16.toUInt16 = a)
    (happly : (BitOp.decode op).apply (Bus.read bus2 a).1 (highByte a) core.regs.f = (result, f)) :
    let regs := { core.regs with pc := core.regs.pc + 1 + 1, wz := a, f }
    executeIndexedBits idx core = (if result.isSome then 19 else 16,
      ⟨regs.copyResult op result, core.shadow, Cycle.runAll bus2 (operandCycles a result)⟩) := by
  have hnamed : Operand.ofBits (lowBits op) = if op &&& 7 = 6 then .mem else .reg (.ofBits (op &&& 7)) := rfl
  have hform : executeIndexedBits idx core =
      let outcome := (BitOp.decode op).apply (Bus.read bus2 a).1 (highByte a) core.regs.f
      let regs := { core.regs with pc := core.regs.pc + 1 + 1, wz := a, f := outcome.2 }
      (if outcome.1.isSome then 19 else 16,
        ⟨regs.copyResult op outcome.1, core.shadow, Cycle.runAll bus2 (operandCycles a outcome.1)⟩) := by
    have hopcode (core : Core β) : operandByte core = ((Bus.read core.bus core.regs.pc).1,
        ⟨{ core.regs with pc := core.regs.pc + 1 }, core.shadow, (Bus.read core.bus core.regs.pc).2⟩) := rfl
    simp only [executeIndexedBits, bind, StateT.bind, operandAddress_displaced hidx, hd, ha, hopcode, hop,
      hnamed, Registers.copyResult.eq_def]
    by_cases hsix : op &&& 7 = 6
    · simp only [if_pos hsix]
      cases BitOp.decode op <;> rfl
    · simp only [if_neg hsix, Registers.set8_hl]
      cases BitOp.decode op <;> rfl
  rw [hform, happly]

end Forms

section Step

variable {β : Type} [Bus β] {cpu : Cpu} {bus : β} {idx : IndexReg}

theorem UnderPrefix.step_indexedBits (h : UnderPrefix cpu bus idx 0xCB) {d op : UInt8} {bus1 bus2 : β}
    (hd : Bus.read (cpu.opcodeFetched bus).bus (cpu.regs.pc + 2) = (d, bus1))
    (hop : Bus.read bus1 (cpu.regs.pc + 3) = (op, bus2)) {a : UInt16}
    (ha : cpu.regs.index idx + d.toInt8.toInt16.toUInt16 = a) {result : Option UInt8} {f : Flags}
    (happly : (BitOp.decode op).apply (Bus.read bus2 a).1 (highByte a) cpu.regs.f = (result, f)) :
    let regs := { cpu.regs.refresh.refresh with pc := cpu.regs.pc + 4, wz := a, f }
    cpu.step bus = cpu.after (if result.isSome then 23 else 20,
      ⟨regs.copyResult op result, false, Cycle.runAll bus2 (operandCycles a result)⟩) := by
  have hbits : executeOpcode idx (.decode 0xCB) (cpu.opcodeFetched bus) =
      executeIndexedBits idx (cpu.opcodeFetched bus) := by
    rw [show Opcode.decode 0xCB = .bits by decide, executeOpcode, if_neg h.decode.1]
  have hpc : (cpu.opcodeFetched bus).regs.pc + 1 = cpu.regs.pc + 3 := by
    rw [pc_opcodeFetched]
    exact UInt16.add_assoc cpu.regs.pc 2 1
  have hd : Bus.read (cpu.opcodeFetched bus).bus (cpu.opcodeFetched bus).regs.pc = (d, bus1) := by
    rw [pc_opcodeFetched]
    exact hd
  have ha : (cpu.opcodeFetched bus).regs.index idx + d.toInt8.toInt16.toUInt16 = a := by
    rw [index_opcodeFetched]
    exact ha
  have hindexed := executeIndexedBits_eq h.decode.1 hd (by rwa [hpc]) ha happly
  rw [hpc, UInt16.add_assoc cpu.regs.pc 3 1] at hindexed
  rw [h.step_eq, hbits, hindexed]
  cases result with
  | none => rfl
  | some v => rfl

/-- **The form at an index register agrees with the form at HL**, run from the same registers and bus but
for HL and the address latch, which hold the displaced address: it leaves the same bus behind, by the
same cycles, and the same flags. Besides,
* the address latch holds the address, and a result goes to the register that the opcode names as well,
  H and L being the plain ones;
* no other register changes but those that any fetch counts up. -/
theorem indexed_bits_agree (h : UnderPrefix cpu bus idx 0xCB) {d op : UInt8} {bus1 bus2 : β}
    (hd : Bus.read (cpu.opcodeFetched bus).bus (cpu.regs.pc + 2) = (d, bus1))
    (hop : Bus.read bus1 (cpu.regs.pc + 3) = (op, bus2)) :
    let a := cpu.regs.index idx + d.toInt8.toInt16.toUInt16
    let plain := (executeBits (hlForm op) ⟨{ cpu.regs.setHL a with wz := a }, false, bus2⟩).2
    let after := cpu.step bus
    let regs := { cpu.regs.refresh.refresh with pc := cpu.regs.pc + 4, wz := a, f := plain.regs.f }
    after.2.2 = plain.bus ∧ after.2.1.regs.f = plain.regs.f ∧
    (op &&& 0xC0 = 0x40 →
      after.1 = 20 ∧ after.2.1.regs = regs ∧ plain.bus = Cycle.runAll bus2 [.read a]) ∧
    (op &&& 0xC0 ≠ 0x40 → after.1 = 23 ∧
      ∃ v, ((BitOp.decode op).apply (Bus.read bus2 a).1 (highByte a) cpu.regs.f).1 = some v ∧
        plain.bus = Cycle.runAll bus2 [.read a, .write a v] ∧
        after.2.1.regs = if op &&& 7 = 6 then regs else regs.setPlain v (.ofBits (op &&& 7))) := by
  intro a plain after regs
  rcases happly : (BitOp.decode op).apply (Bus.read bus2 a).1 (highByte a) cpu.regs.f with ⟨result, f⟩
  have hnone : result.isNone = decide (op &&& 0xC0 = 0x40) := by
    rw [← isTest_decode, ← isNone_apply (BitOp.decode op) (Bus.read bus2 a).1 (highByte a) cpu.regs.f, happly]
  have hplain : plain =
      ⟨{ cpu.regs.setHL a with wz := a, f }, false, Cycle.runAll bus2 (operandCycles a result)⟩ := by
    let start : Core β := ⟨{ cpu.regs.setHL a with wz := a }, false, bus2⟩
    have hhl : start.regs.hl = a := Registers.hl_setHL cpu.regs a
    exact congrArg Prod.snd (executeBits_hlForm hhl rfl happly)
  have hafter := h.step_indexedBits hd hop rfl happly
  have hregs : regs = { cpu.regs.refresh.refresh with pc := cpu.regs.pc + 4, wz := a, f } := by
    show { cpu.regs.refresh.refresh with pc := cpu.regs.pc + 4, wz := a, f := plain.regs.f } = _
    rw [hplain]
  rw [hplain, show after = _ from hafter, hregs]
  refine ⟨rfl, Registers.f_copyResult .., fun htest => ?_, fun htest => ?_⟩
  · rw [decide_eq_true htest, Option.isNone_iff_eq_none] at hnone
    subst hnone
    exact ⟨rfl, rfl, rfl⟩
  · rw [decide_eq_false htest] at hnone
    obtain ⟨v, rfl⟩ := Option.isSome_iff_exists.mp (Option.isNone_eq_false_iff.mp hnone)
    exact ⟨rfl, v, rfl, rfl, rfl⟩

end Step

/-- Memory begins with an index prefix, `CB`, a displacement and an opcode. -/
def prefixedBits (index d op : UInt8) : FlatBus := (prefixedOpcode index 0xCB d).poke 3 op

theorem peek_prefixedBits (index d op : UInt8) {a : UInt16} (h : 3 ≠ a) :
    (prefixedBits index d op).peek a = (prefixedOpcode index 0xCB d).peek a :=
  FlatBus.peek_poke_other _ _ h

theorem underPrefix_prefixedBits {idx : IndexReg} {index : UInt8} (d op : UInt8)
    (hindex : (idx, index) ∈ [(IndexReg.ix, (0xDD : UInt8)), (.iy, 0xFD)]) :
    UnderPrefix indexed (prefixedBits index d op) idx 0xCB where
  begins := rfl
  index := by
    show (idx, (prefixedBits index d op).peek 0) ∈ _
    rwa [peek_prefixedBits _ _ _ (by decide), (peek_prefixedOpcode index 0xCB d).1]
  looked := by
    show ¬IsPrefix ((prefixedBits index d op).peek 1)
    rw [peek_prefixedBits _ _ _ (by decide), (peek_prefixedOpcode index 0xCB d).2.1]
    decide
  fetched := (peek_prefixedBits _ _ _ (by decide)).trans (peek_prefixedOpcode index 0xCB d).2.1

/-- `SET 0,(IX+1),H` puts its result into H and leaves IX alone, and `BIT 0,(IY-2)` changes nothing in
memory. -/
theorem indexed_bits_agree_indexed :
    (let after := indexed.step (prefixedBits 0xDD 0x01 0xC4)
    after.1 = 23 ∧ after.2.2.peek 0x1235 = 1 ∧ after.2.1.regs.h = 1 ∧ after.2.1.regs.ix = 0x1234 ∧
      after.2.1.regs.wz = 0x1235) ∧
    let after := indexed.step (prefixedBits 0xFD 0xFE 0x46)
    after.1 = 20 ∧ after.2.2 = prefixedBits 0xFD 0xFE 0x46 ∧ after.2.1.regs.iy = 2 ∧
      after.2.1.regs.wz = 0 := by
  constructor
  · have hprefix : UnderPrefix indexed (prefixedBits 0xDD 0x01 0xC4) .ix 0xCB :=
      underPrefix_prefixedBits 0x01 0xC4 (by decide)
    have hd : (prefixedBits 0xDD 0x01 0xC4).peek 2 = 0x01 :=
      (peek_prefixedBits _ _ _ (by decide)).trans (peek_prefixedOpcode 0xDD 0xCB 0x01).2.2
    have hop : (prefixedBits 0xDD 0x01 0xC4).peek 3 = 0xC4 := FlatBus.peek_poke_self ..
    have hzero : (prefixedBits 0xDD 0x01 0xC4).peek 0x1235 = 0 := by
      rw [prefixedBits, prefixedOpcode, FlatBus.peek_poke_other _ _ (by decide),
        FlatBus.peek_poke_other _ _ (by decide), FlatBus.peek_poke_other _ _ (by decide),
        FlatBus.peek_poke_other _ _ (by decide)]
      exact Block.get_fill ..
    obtain ⟨hbus, -, -, hresult⟩ := indexed_bits_agree hprefix (congrArg (·, prefixedBits 0xDD 0x01 0xC4) hd)
      (congrArg (·, prefixedBits 0xDD 0x01 0xC4) hop)
    obtain ⟨hcost, v, hv, hplain, hregs⟩ := hresult (by decide)
    have ha : indexed.regs.index .ix + (0x01 : UInt8).toInt8.toInt16.toUInt16 = 0x1235 := by decide
    rw [ha] at hbus hv hplain hregs
    obtain rfl : v = 1 := by
      have hread : (Bus.read (prefixedBits 0xDD 0x01 0xC4) 0x1235).1 = 0 := hzero
      rw [hread, show BitOp.decode 0xC4 = .set 0 by decide] at hv
      exact (Option.some.inj hv).symm
    refine ⟨hcost, ?_, ?_⟩
    · rw [hbus, hplain]
      exact FlatBus.peek_poke_self ..
    · rw [hregs]
      exact ⟨rfl, rfl, rfl⟩
  · have hprefix : UnderPrefix indexed (prefixedBits 0xFD 0xFE 0x46) .iy 0xCB :=
      underPrefix_prefixedBits 0xFE 0x46 (by decide)
    have hd : (prefixedBits 0xFD 0xFE 0x46).peek 2 = 0xFE :=
      (peek_prefixedBits _ _ _ (by decide)).trans (peek_prefixedOpcode 0xFD 0xCB 0xFE).2.2
    have hop : (prefixedBits 0xFD 0xFE 0x46).peek 3 = 0x46 := FlatBus.peek_poke_self ..
    obtain ⟨hbus, -, htest, -⟩ := indexed_bits_agree hprefix (congrArg (·, prefixedBits 0xFD 0xFE 0x46) hd)
      (congrArg (·, prefixedBits 0xFD 0xFE 0x46) hop)
    obtain ⟨hcost, hregs, hplain⟩ := htest (by decide)
    have hread (bus : FlatBus) (a : UInt16) : Cycle.runAll bus [.read a] = bus := rfl
    refine ⟨hcost, (hbus.trans hplain).trans (hread _ _), ?_⟩
    rw [hregs]
    exact ⟨rfl, by decide⟩

end Cpu

end AmstradCpc
