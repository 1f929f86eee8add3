/-
The parallel interface (an 8255): three 8-bit ports and a control register.
The control register says which ports are inputs, or changes a single bit of
port C. Only the plain mode of the chip is there. A write answers what it puts
on the pins; a read is given the levels on the pins.
-/
import AmstradCpc.Word

namespace AmstradCpc

structure Ppi where
  portA : UInt8 := 0
  portB : UInt8 := 0
  portC : UInt8 := 0
  /-- At first every port is an input. -/
  control : UInt8 := 0x9B
  deriving DecidableEq, Repr, Inhabited

namespace Ppi

inductive Port where
  | a
  | b
  | c
  deriving DecidableEq, Repr, Inhabited

def portAIsInput (p : Ppi) : Bool := p.control &&& 0x10 != 0
def portBIsInput (p : Ppi) : Bool := p.control &&& 0x02 != 0

/-- The bits of port C that are outputs; each half has a direction of its own. -/
def portCOutputs (p : Ppi) : UInt8 :=
  (if p.control &&& 0x08 == 0 then 0xF0 else 0) ||| (if p.control &&& 0x01 == 0 then 0x0F else 0)

/-- The port whose pins a read of register `reg` looks at. -/
def samples (p : Ppi) (reg : UInt8) : Option Port :=
  match reg &&& 3 with
  | 0 => if p.portAIsInput then some .a else none
  | 1 => if p.portBIsInput then some .b else none
  | 2 => some .c
  | _ => none

/-- Reads a register. An output port reads what was written to it. -/
def read (p : Ppi) (levels : Port → UInt8) (reg : UInt8) : UInt8 :=
  match reg &&& 3 with
  | 0 => if p.portAIsInput then levels .a else p.portA
  | 1 => if p.portBIsInput then levels .b else p.portB
  | 2 => p.portC &&& p.portCOutputs ||| levels .c &&& ~~~p.portCOutputs
  | _ => p.control

/-- What reaches the pins when the ports have the values that they now have. -/
def drivenC (p : Ppi) : UInt8 := p.portC &&& p.portCOutputs

/-- Bit 7 of the control register set: directions, and all outputs go to zero.
Clear: one bit of port C. -/
def writeControl (p : Ppi) (v : UInt8) : Ppi × List (Port × UInt8) :=
  if v &&& 0x80 != 0 then
    let p : Ppi := { control := v }
    (p, (if p.portAIsInput then [] else [(.a, 0)]) ++
      (if p.portBIsInput then [] else [(.b, 0)]) ++ [(.c, 0)])
  else
    let bit := bitIf true (v >>> 1 &&& 7)
    let p := { p with portC := if v &&& 1 != 0 then p.portC ||| bit else p.portC &&& ~~~bit }
    (p, [(.c, p.drivenC)])

/-- Writes a register, and answers what that puts on which pins, in order. -/
def write (p : Ppi) (reg v : UInt8) : Ppi × List (Port × UInt8) :=
  match reg &&& 3 with
  | 0 => ({ p with portA := v }, if p.portAIsInput then [] else [(.a, v)])
  | 1 => ({ p with portB := v }, if p.portBIsInput then [] else [(.b, v)])
  | 2 => let p := { p with portC := v }; (p, [(.c, p.drivenC)])
  | _ => p.writeControl v

end Ppi

end AmstradCpc
