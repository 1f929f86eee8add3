/-
The processor's properties: every register, whole and by halves, the flags one
by one, and the interrupt state.
-/
import AmstradCpc.Cpu
import AmstradCpc.Inspect

namespace AmstradCpc.Cpu

/-- A property of the registers. -/
def register (path : String) (read : Registers → Value) : Property Cpu :=
  .plain path fun cpu => read cpu.regs

instance : Inspectable Cpu where
  properties := [
    register "a" (·.a),
    register "f" (·.f.toByte),
    register "b" (·.b),
    register "c" (·.c),
    register "d" (·.d),
    register "e" (·.e),
    register "h" (·.h),
    register "l" (·.l),
    register "af" (·.af),
    register "bc" (·.bc),
    register "de" (·.de),
    register "hl" (·.hl),
    register "a'" (·.a'),
    register "f'" (·.f'.toByte),
    register "b'" (·.b'),
    register "c'" (·.c'),
    register "d'" (·.d'),
    register "e'" (·.e'),
    register "h'" (·.h'),
    register "l'" (·.l'),
    register "af'" (·.af'),
    register "bc'" (·.bc'),
    register "de'" (·.de'),
    register "hl'" (·.hl'),
    register "ix" (·.ix),
    register "iy" (·.iy),
    register "ixh" fun r => highByte r.ix,
    register "ixl" fun r => lowByte r.ix,
    register "iyh" fun r => highByte r.iy,
    register "iyl" fun r => lowByte r.iy,
    register "sp" (·.sp),
    register "pc" (·.pc),
    register "i" (·.i),
    register "r" (·.r),
    register "wz" (·.wz),
    register "flags.s" (·.f.sign),
    register "flags.z" (·.f.zero),
    register "flags.y" (·.f.y),
    register "flags.h" (·.f.half),
    register "flags.x" (·.f.x),
    register "flags.p" (·.f.parity),
    register "flags.n" (·.f.subtract),
    register "flags.c" (·.f.carry),
    register "iff1" (·.iff1),
    register "iff2" (·.iff2),
    register "im" (·.im),
    .plain "int_pending" (·.intLatch),
    register "halted" (·.halted),
    .plain "ticks" (·.total.count)]

/-- The registers with another value in one of them, of which a small one takes
the low byte. There are no registers of other names. -/
def Registers.assign? (r : Registers) (name : String) (v : UInt16) : Option Registers :=
  let low := lowByte v
  match name with
  | "a" => some { r with a := low }
  | "f" => some { r with f := .ofByte low }
  | "b" => some { r with b := low }
  | "c" => some { r with c := low }
  | "d" => some { r with d := low }
  | "e" => some { r with e := low }
  | "h" => some { r with h := low }
  | "l" => some { r with l := low }
  | "af" => some (r.setAF v)
  | "bc" => some (r.setBC v)
  | "de" => some (r.setDE v)
  | "hl" => some (r.setHL v)
  | "af'" => some (r.setAF' v)
  | "bc'" => some (r.setBC' v)
  | "de'" => some (r.setDE' v)
  | "hl'" => some (r.setHL' v)
  | "ix" => some { r with ix := v }
  | "iy" => some { r with iy := v }
  | "sp" => some { r with sp := v }
  | "pc" => some { r with pc := v }
  | "wz" => some { r with wz := v }
  | "i" => some { r with i := low }
  | "r" => some { r with r := low }
  | "im" => some { r with im := low }
  | "iff1" => some { r with iff1 := v != 0 }
  | "iff2" => some { r with iff2 := v != 0 }
  | "halted" => some { r with halted := v != 0 }
  | _ => none

/-- The processor with another value in a register. -/
def assign (cpu : Cpu) (name : String) (v : UInt16) : Cpu :=
  { cpu with regs := (cpu.regs.assign? name v).getD cpu.regs }

end AmstradCpc.Cpu
