/-
The register file: the main and the alternate set, the index registers, the
counters, and the internal latches that instructions can observe.
-/
import AmstradCpc.Cpu.Flags

namespace AmstradCpc.Cpu

structure Registers where
  a : UInt8 := 0
  f : Flags := {}
  b : UInt8 := 0
  c : UInt8 := 0
  d : UInt8 := 0
  e : UInt8 := 0
  h : UInt8 := 0
  l : UInt8 := 0
  a' : UInt8 := 0
  f' : Flags := {}
  b' : UInt8 := 0
  c' : UInt8 := 0
  d' : UInt8 := 0
  e' : UInt8 := 0
  h' : UInt8 := 0
  l' : UInt8 := 0
  ix : UInt16 := 0
  iy : UInt16 := 0
  sp : UInt16 := 0
  pc : UInt16 := 0
  i : UInt8 := 0
  /-- The refresh counter. Its top bit only changes when it is loaded. -/
  r : UInt8 := 0
  /-- An internal address latch. It shows in the undocumented flags of a bit
  test in memory. -/
  wz : UInt16 := 0
  iff1 : Bool := false
  iff2 : Bool := false
  /-- The interrupt mode. -/
  im : UInt8 := 0
  halted : Bool := false
  deriving DecidableEq, Repr, Inhabited

namespace Registers

/-- The registers after power on or a reset. -/
def initial : Registers := { a := 0xFF, f := .ofByte 0xFF, sp := 0xFFFF }

/-! ## Pairs -/

def af (r : Registers) : UInt16 := joinBytes r.a r.f.toByte
def bc (r : Registers) : UInt16 := joinBytes r.b r.c
def de (r : Registers) : UInt16 := joinBytes r.d r.e
def hl (r : Registers) : UInt16 := joinBytes r.h r.l
def af' (r : Registers) : UInt16 := joinBytes r.a' r.f'.toByte
def bc' (r : Registers) : UInt16 := joinBytes r.b' r.c'
def de' (r : Registers) : UInt16 := joinBytes r.d' r.e'
def hl' (r : Registers) : UInt16 := joinBytes r.h' r.l'

def setAF (r : Registers) (w : UInt16) : Registers :=
  { r with a := highByte w, f := .ofByte (lowByte w) }
def setBC (r : Registers) (w : UInt16) : Registers := { r with b := highByte w, c := lowByte w }
def setDE (r : Registers) (w : UInt16) : Registers := { r with d := highByte w, e := lowByte w }
def setHL (r : Registers) (w : UInt16) : Registers := { r with h := highByte w, l := lowByte w }
def setAF' (r : Registers) (w : UInt16) : Registers :=
  { r with a' := highByte w, f' := .ofByte (lowByte w) }
def setBC' (r : Registers) (w : UInt16) : Registers := { r with b' := highByte w, c' := lowByte w }
def setDE' (r : Registers) (w : UInt16) : Registers := { r with d' := highByte w, e' := lowByte w }
def setHL' (r : Registers) (w : UInt16) : Registers := { r with h' := highByte w, l' := lowByte w }

/-- Exchanges accumulator and flags with their alternates. -/
def exchangeAF (r : Registers) : Registers := { r with a := r.a', f := r.f', a' := r.a, f' := r.f }

/-- Exchanges the six general registers with their alternates. -/
def exchangeGeneral (r : Registers) : Registers :=
  { r with
    b := r.b', c := r.c', d := r.d', e := r.e', h := r.h', l := r.l'
    b' := r.b, c' := r.c, d' := r.d, e' := r.e, h' := r.h, l' := r.l }

/-- Counts one refresh in the lower seven bits. -/
def refresh (r : Registers) : Registers := { r with r := r.r &&& 0x80 ||| (r.r + 1) &&& 0x7F }

theorem hl_setHL (r : Registers) (w : UInt16) : (r.setHL w).hl = w := joinBytes_halves w

end Registers

end AmstradCpc.Cpu
