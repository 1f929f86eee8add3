/-
The instructions after `ED`: 16-bit arithmetic with carry, ports addressed by
BC, interrupt control, and the block instructions. A repeating block
instruction does one item at a time and steps back onto itself, so interrupts
get in between the items.
-/
import AmstradCpc.Cpu.Exec

namespace AmstradCpc.Cpu

variable {β : Type} [Bus β]

open Exec

/-! ## Block instructions -/

/-- What is added to HL, and to DE, after an item. -/
def stride (down : Bool) : UInt16 := if down then 0xFFFF else 1

/-- Copying an item sets the undocumented flags from the sum of the byte and
the accumulator; parity tells whether items are left. -/
def copyFlags (a v : UInt8) (left : Bool) (f : Flags) : Flags :=
  let n := v + a
  { f with y := bitOf n 1, half := false, x := bitOf n 3, parity := left, subtract := false }

/-- Comparing an item sets the flags of a difference, except that carry
survives, parity tells whether items are left, and the undocumented flags come
from the difference less the half carry. -/
def searchFlags (a v : UInt8) (left : Bool) (f : Flags) : Flags :=
  let (result, diff) := sub8 a v false
  let n := result - bitIf diff.half 0
  { diff with y := bitOf n 1, x := bitOf n 3, parity := left, carry := f.carry }

/-- Port transfers take the flags from the counter `b`, from the byte, and from
the sum of the byte with `other`. -/
def transferFlags (b v other : UInt8) : Flags :=
  let overflows := decide (255 < v.toNat + other.toNat)
  { Flags.ofResult b with
    half := overflows
    parity := evenParity ((v + other) &&& 7 ^^^ b)
    subtract := bitOf v 7
    carry := overflows }

/-- One item of a block instruction; answers whether there is more to do. -/
def blockItem (op : BlockOp) (down : Bool) : Exec β Bool := do
  let step := stride down
  let r ← registers
  match op with
  | .copy =>
    let v ← readByte r.hl
    writeByte r.de v
    let left := r.bc - 1
    modifyRegs fun r =>
      { ((r.setHL (r.hl + step)).setDE (r.de + step)).setBC left with
        f := copyFlags r.a v (left != 0) r.f }
    return left != 0
  | .compare =>
    let v ← readByte r.hl
    let left := r.bc - 1
    modifyRegs fun r =>
      { (r.setHL (r.hl + step)).setBC left with
        wz := r.wz + step, f := searchFlags r.a v (left != 0) r.f }
    return left != 0 && r.a - v != 0
  | .input =>
    let v ← inputByte r.bc
    writeByte r.hl v
    let b := r.b - 1
    modifyRegs fun r =>
      { r.setHL (r.hl + step) with
        b, wz := r.bc + step, f := transferFlags b v (r.c + lowByte step) }
    return b != 0
  | .output =>
    let v ← readByte r.hl
    let b := r.b - 1
    let port := joinBytes b r.c
    outputByte port v
    modifyRegs fun r =>
      let r := r.setHL (r.hl + step)
      { r with b, wz := port + step, f := transferFlags b v r.l }
    return b != 0

/-- A block instruction with more to do goes back to its own first byte. -/
def executeBlock (op : BlockOp) (down repeats : Bool) : Exec β Nat := do
  let more ← blockItem op down
  if repeats && more then
    modifyRegs fun r => { r with pc := r.pc - 2 }
    if op = .copy ∨ op = .compare then modifyRegs fun r => { r with wz := r.pc + 1 }
    return 21
  else return 16

/-! ## The rest of the set -/

/-- Reading the interrupt register or the refresh counter shows in the parity
flag whether interrupts are to be enabled again. -/
def loadFromControl (v : UInt8) (r : Registers) : Registers :=
  { r with a := v, f := { Flags.ofResult v with parity := r.iff2, carry := r.f.carry } }

/-- Rotates a decimal digit between the accumulator and memory: the new
accumulator and the new byte in memory. -/
def rotateDigits (right : Bool) (a m : UInt8) : UInt8 × UInt8 :=
  let kept := a &&& 0xF0
  if right then (kept ||| m &&& 0x0F, a <<< 4 ||| m >>> 4)
  else (kept ||| m >>> 4, m <<< 4 ||| a &&& 0x0F)

def executeRotateDigits (right : Bool) : Exec β Nat := do
  let r ← registers
  let m ← readByte r.hl
  let (a, m) := rotateDigits right r.a m
  writeByte r.hl m
  modifyRegs fun r =>
    { r with a, f := { Flags.ofLogic a with carry := r.f.carry }, wz := r.hl + 1 }
  return 18

def executeExtended : Extended → Exec β Nat
  | .input target => do
    let port := (← registers).bc
    let v ← inputByte port
    setWZ (port + 1)
    if let some target := target then modifyRegs fun r => r.set8 .hl target v
    modifyRegs fun r => { r with f := { Flags.ofLogic v with carry := r.f.carry } }
    return 12
  | .output source => do
    let r ← registers
    outputByte r.bc (match source with
      | some source => r.get8 .hl source
      | none => 0)
    setWZ (r.bc + 1)
    return 12
  | .subtractPair p => do
    modifyRegs fun r =>
      let (w, f) := sbc16 r.hl (r.getPair .hl p) r.f
      { r.setHL w with wz := r.hl + 1, f }
    return 15
  | .addPair p => do
    modifyRegs fun r =>
      let (w, f) := adc16 r.hl (r.getPair .hl p) r.f
      { r.setHL w with wz := r.hl + 1, f }
    return 15
  | .storePair p => do
    let a ← operandWord
    writeWord a ((← registers).getPair .hl p)
    setWZ (a + 1)
    return 20
  | .loadPair p => do
    let a ← operandWord
    let w ← readWord a
    modifyRegs fun r => { r.setPair .hl p w with wz := a + 1 }
    return 20
  | .negate => do
    setResult (sub8 0 (← registers).a false)
    return 8
  | .retFromInterrupt => do
    modifyRegs fun r => { r with iff1 := r.iff2 }
    let w ← popWord
    modifyRegs fun r => { r with pc := w, wz := w }
    return 14
  | .interruptMode m => do modifyRegs fun r => { r with im := m }; return 8
  | .loadI => do modifyRegs fun r => { r with i := r.a }; return 9
  | .loadR => do modifyRegs fun r => { r with r := r.a }; return 9
  | .readI => do modifyRegs fun r => loadFromControl r.i r; return 9
  | .readR => do modifyRegs fun r => loadFromControl r.r r; return 9
  | .rotateRight => executeRotateDigits true
  | .rotateLeft => executeRotateDigits false
  | .block op down repeats => executeBlock op down repeats
  | .unused => return 8

end AmstradCpc.Cpu
