/-
The instruction set, and how a byte names an instruction. An opcode byte splits
into fields of two, three and three bits, and its fields choose the operation
and the operands. Three bytes announce a second table (`CB` for single bits,
`ED` for the extended set), and two (`DD`, `FD`) put an index register in the
place of HL; decoding is kept apart from what the instructions do.
-/
import AmstradCpc.Cpu.Arithmetic

namespace AmstradCpc.Cpu

/-! ## Operands -/

/-- The 8-bit registers that opcodes name. -/
inductive Reg8 where
  | b | c | d | e | h | l | a
  deriving DecidableEq, Repr, Inhabited

/-- An 8-bit operand: a register, or the byte in memory that HL (or an index
register and a displacement) points to. -/
inductive Operand where
  | reg (r : Reg8)
  | mem
  deriving DecidableEq, Repr, Inhabited

/-- The 16-bit registers of the load and arithmetic group. -/
inductive Pair where
  | bc | de | hl | sp
  deriving DecidableEq, Repr, Inhabited

/-- The 16-bit registers that go on the stack. -/
inductive StackPair where
  | bc | de | hl | af
  deriving DecidableEq, Repr, Inhabited

/-- The two pairs that address memory for the accumulator alone. -/
inductive Pointer where
  | bc | de
  deriving DecidableEq, Repr, Inhabited

/-- The register that plays the part of HL. -/
inductive IndexReg where
  | hl | ix | iy
  deriving DecidableEq, Repr, Inhabited

/-- What a conditional jump asks of the flags. -/
inductive Cond where
  | notZero | zero | noCarry | carry | odd | even | positive | negative
  deriving DecidableEq, Repr, Inhabited

def Cond.holds (c : Cond) (f : Flags) : Bool :=
  match c with
  | .notZero => !f.zero
  | .zero => f.zero
  | .noCarry => !f.carry
  | .carry => f.carry
  | .odd => !f.parity
  | .even => f.parity
  | .positive => !f.sign
  | .negative => f.sign

/-! ## Instructions -/

/-- The instructions of the first table. -/
inductive Instr where
  | nop
  | exchangeAF
  | exchangeGeneral
  | exchangeDEHL
  | exchangeStack
  | countAndJump
  | jumpBy (c : Option Cond)
  | jumpTo (c : Option Cond)
  | jumpIndex
  | call (c : Option Cond)
  | ret
  | retIf (c : Cond)
  | restart (target : UInt16)
  | push (p : StackPair)
  | pop (p : StackPair)
  | setPair (p : Pair)
  | incPair (p : Pair)
  | decPair (p : Pair)
  | addPair (p : Pair)
  | loadSP
  | storeIndex
  | loadIndex
  | storeAVia (p : Pointer)
  | loadAVia (p : Pointer)
  | storeA
  | loadA
  | inc (o : Operand)
  | dec (o : Operand)
  | set (o : Operand)
  | copy (target source : Reg8)
  | load (target : Reg8)
  | store (source : Reg8)
  | accumulate (op : AccOp) (o : Operand)
  | accumulateByte (op : AccOp)
  | rotateA (op : Shift)
  | adjustA
  | complementA
  | setCarry
  | flipCarry
  | halt
  | output
  | input
  | disableInterrupts
  | enableInterrupts
  deriving DecidableEq, Repr, Inhabited

/-- What the first byte of an instruction says. -/
inductive Opcode where
  | plain (i : Instr)
  /-- `CB`: the next byte names an operation on single bits. -/
  | bits
  /-- `ED`: the next byte belongs to the extended set. -/
  | extended
  /-- `DD` and `FD`: an index register stands in for HL. -/
  | index (r : IndexReg)
  deriving DecidableEq, Repr, Inhabited

/-- What the byte after `CB` does to its operand. -/
inductive BitOp where
  | shift (op : Shift)
  | test (n : UInt8)
  | reset (n : UInt8)
  | set (n : UInt8)
  deriving DecidableEq, Repr, Inhabited

/-- The four block operations. -/
inductive BlockOp where
  | copy | compare | input | output
  deriving DecidableEq, Repr, Inhabited

/-- The instructions of the extended set; `unused` covers the bytes that have
no meaning. -/
inductive Extended where
  | input (target : Option Reg8)
  | output (source : Option Reg8)
  | subtractPair (p : Pair)
  | addPair (p : Pair)
  | storePair (p : Pair)
  | loadPair (p : Pair)
  | negate
  | retFromInterrupt
  | interruptMode (m : UInt8)
  | loadI
  | loadR
  | readI
  | readR
  | rotateRight
  | rotateLeft
  | block (op : BlockOp) (down repeats : Bool)
  | unused
  deriving DecidableEq, Repr, Inhabited

/-! ## Fields of an opcode -/

/-- The register numbered `n`; six, which names memory, is left to
`Operand.ofBits`. -/
def Reg8.ofBits (n : UInt8) : Reg8 :=
  match n with
  | 0 => .b
  | 1 => .c
  | 2 => .d
  | 3 => .e
  | 4 => .h
  | 5 => .l
  | _ => .a

def Operand.ofBits (n : UInt8) : Operand := if n = 6 then .mem else .reg (.ofBits n)

def Operand.reg? : Operand → Option Reg8
  | .reg r => some r
  | .mem => none

def Pair.ofBits (n : UInt8) : Pair :=
  match n with
  | 0 => .bc
  | 1 => .de
  | 2 => .hl
  | _ => .sp

def StackPair.ofBits (n : UInt8) : StackPair :=
  match n with
  | 0 => .bc
  | 1 => .de
  | 2 => .hl
  | _ => .af

def Cond.ofBits (n : UInt8) : Cond :=
  match n with
  | 0 => .notZero
  | 1 => .zero
  | 2 => .noCarry
  | 3 => .carry
  | 4 => .odd
  | 5 => .even
  | 6 => .positive
  | _ => .negative

def AccOp.ofBits (n : UInt8) : AccOp :=
  match n with
  | 0 => .add
  | 1 => .adc
  | 2 => .sub
  | 3 => .sbc
  | 4 => .and
  | 5 => .xor
  | 6 => .or
  | _ => .cp

def Shift.ofBits (n : UInt8) : Shift :=
  match n with
  | 0 => .rlc
  | 1 => .rrc
  | 2 => .rl
  | 3 => .rr
  | 4 => .sla
  | 5 => .sra
  | 6 => .sll
  | _ => .srl

/-- Bits 5 to 3 of an opcode. -/
def middleBits (op : UInt8) : UInt8 := op >>> 3 &&& 7

/-- Bits 2 to 0 of an opcode. -/
def lowBits (op : UInt8) : UInt8 := op &&& 7

/-! ## The first table -/

/-- Opcodes 00 to 3F: `y` and `z` are the middle and the low bits. -/
def decodeLoads (y z : UInt8) : Instr :=
  let pair := Pair.ofBits (y >>> 1)
  let even := y &&& 1 == 0
  match z with
  | 0 =>
    match y with
    | 0 => .nop
    | 1 => .exchangeAF
    | 2 => .countAndJump
    | 3 => .jumpBy none
    | _ => .jumpBy (some (.ofBits (y - 4)))
  | 1 => if even then .setPair pair else .addPair pair
  | 2 =>
    match y with
    | 0 => .storeAVia .bc
    | 1 => .loadAVia .bc
    | 2 => .storeAVia .de
    | 3 => .loadAVia .de
    | 4 => .storeIndex
    | 5 => .loadIndex
    | 6 => .storeA
    | _ => .loadA
  | 3 => if even then .incPair pair else .decPair pair
  | 4 => .inc (.ofBits y)
  | 5 => .dec (.ofBits y)
  | 6 => .set (.ofBits y)
  | _ =>
    match y with
    | 4 => .adjustA
    | 5 => .complementA
    | 6 => .setCarry
    | 7 => .flipCarry
    | _ => .rotateA (.ofBits y)

/-- Opcodes 40 to 7F: one operand is copied to another. -/
def decodeCopies (y z : UInt8) : Instr :=
  match Operand.ofBits y, Operand.ofBits z with
  | .mem, .mem => .halt
  | .reg r, .mem => .load r
  | .mem, .reg r => .store r
  | .reg target, .reg source => .copy target source

/-- Opcodes C0 to FF. -/
def decodeJumps (y z : UInt8) : Opcode :=
  let even := y &&& 1 == 0
  let pair := StackPair.ofBits (y >>> 1)
  match z with
  | 0 => .plain (.retIf (.ofBits y))
  | 1 =>
    if even then .plain (.pop pair)
    else match pair with
      | .bc => .plain .ret
      | .de => .plain .exchangeGeneral
      | .hl => .plain .jumpIndex
      | .af => .plain .loadSP
  | 2 => .plain (.jumpTo (some (.ofBits y)))
  | 3 =>
    match y with
    | 0 => .plain (.jumpTo none)
    | 1 => .bits
    | 2 => .plain .output
    | 3 => .plain .input
    | 4 => .plain .exchangeStack
    | 5 => .plain .exchangeDEHL
    | 6 => .plain .disableInterrupts
    | _ => .plain .enableInterrupts
  | 4 => .plain (.call (some (.ofBits y)))
  | 5 =>
    if even then .plain (.push pair)
    else match pair with
      | .bc => .plain (.call none)
      | .de => .index .ix
      | .hl => .extended
      | .af => .index .iy
  | 6 => .plain (.accumulateByte (.ofBits y))
  | _ => .plain (.restart (y.toUInt16 * 8))

/-- What an opcode byte says when it comes first, or after an index prefix. -/
def Opcode.decode (op : UInt8) : Opcode :=
  let y := middleBits op
  let z := lowBits op
  match op >>> 6 with
  | 0 => .plain (decodeLoads y z)
  | 1 => .plain (decodeCopies y z)
  | 2 => .plain (.accumulate (.ofBits y) (.ofBits z))
  | _ => decodeJumps y z

/-! ## The second tables -/

/-- The operation that a byte after `CB` names. -/
def BitOp.decode (op : UInt8) : BitOp :=
  let y := middleBits op
  match op >>> 6 with
  | 0 => .shift (.ofBits y)
  | 1 => .test y
  | 2 => .reset y
  | _ => .set y

/-- The interrupt mode that bits 5 to 3 select; bit 5 does not matter. -/
def interruptModeOfBits (y : UInt8) : UInt8 :=
  match y &&& 3 with
  | 2 => 1
  | 3 => 2
  | _ => 0

def BlockOp.ofBits (n : UInt8) : BlockOp :=
  match n with
  | 0 => .copy
  | 1 => .compare
  | 2 => .input
  | _ => .output

/-- The instruction that a byte after `ED` names. -/
def Extended.decode (op : UInt8) : Extended :=
  let y := middleBits op
  let z := lowBits op
  let pair := Pair.ofBits (y >>> 1)
  let even := y &&& 1 == 0
  match op >>> 6 with
  | 1 =>
    match z with
    | 0 => .input (Operand.ofBits y).reg?
    | 1 => .output (Operand.ofBits y).reg?
    | 2 => if even then .subtractPair pair else .addPair pair
    | 3 => if even then .storePair pair else .loadPair pair
    | 4 => .negate
    | 5 => .retFromInterrupt
    | 6 => .interruptMode (interruptModeOfBits y)
    | _ =>
      match y with
      | 0 => .loadI
      | 1 => .loadR
      | 2 => .readI
      | 3 => .readR
      | 4 => .rotateRight
      | 5 => .rotateLeft
      | _ => .unused
  | 2 =>
    if 4 ≤ y ∧ z ≤ 3 then .block (.ofBits z) (y &&& 1 != 0) (6 ≤ y)
    else .unused
  | _ => .unused

/-- Only the two index prefixes read as an index prefix. -/
theorem Opcode.decode_eq_index_iff (op : UInt8) :
    (∃ r, Opcode.decode op = .index r) ↔ op = 0xDD ∨ op = 0xFD := by
  have all : ∀ n : Fin 256,
      (match Opcode.decode (UInt8.ofNat n) with | .index _ => true | _ => false) =
        (UInt8.ofNat n == 0xDD || UInt8.ofNat n == 0xFD) := by decide +kernel
  have h := all ⟨op.toNat, op.toNat_lt⟩
  simp only [UInt8.ofNat_toNat] at h
  cases hd : Opcode.decode op <;> simp_all

end AmstradCpc.Cpu
