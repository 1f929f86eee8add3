/-
The keyboard, with the joystick that shares its wires: ten lines of eight keys.
The machine selects a line and reads its keys as eight bits, a pressed key
being a zero.
-/
import AmstradCpc.Word

namespace AmstradCpc

/-- The keys in the order of the matrix, eight to a line. -/
inductive Key where
  | up | right | down | f9 | f6 | f3 | enter | fDot
  | left | copy | f7 | f8 | f5 | f1 | f2 | f0
  | clr | leftBracket | return | rightBracket | f4 | shift | backslash | control
  | caret | minus | at | p | semicolon | colon | slash | period
  | n0 | n9 | o | i | l | k | m | comma
  | n8 | n7 | u | y | h | j | n | space
  | n6 | n5 | r | t | g | f | b | v
  | n4 | n3 | e | w | s | d | c | x
  | n1 | n2 | escape | q | tab | a | capsLock | z
  | joyUp | joyDown | joyLeft | joyRight | fire2 | fire1 | fire3 | del
  deriving DecidableEq, Repr, Inhabited

namespace Key

/-- The place of a key in the matrix, counted line by line. -/
def index (key : Key) : Nat := key.ctorIdx

def line (key : Key) : Nat := key.index / 8

/-- The bit of its line that the key is wired to. -/
def bit (key : Key) : UInt8 := (key.index % 8).toUInt8

theorem line_lt (key : Key) : key.line < 10 := by cases key <;> decide

end Key

structure Keyboard where
  /-- The keys that are pressed, as ones. -/
  pressed : Vector UInt8 10 := .replicate 10 0
  /-- The selected line. Numbers above 9 select none. -/
  line : UInt8 := 0
  deriving DecidableEq, Inhabited

namespace Keyboard

def setKey (kb : Keyboard) (key : Key) (down : Bool) : Keyboard :=
  let keys := kb.pressed.get ⟨key.line, key.line_lt⟩
  let mask := bitIf true key.bit
  let keys := if down then keys ||| mask else keys &&& ~~~mask
  { kb with pressed := kb.pressed.set key.line keys key.line_lt }

def releaseAll (kb : Keyboard) : Keyboard := { kb with pressed := .replicate 10 0 }

def isPressed (kb : Keyboard) (key : Key) : Bool :=
  bitOf (kb.pressed.get ⟨key.line, key.line_lt⟩) key.bit

/-- What a line reads as; a line that does not exist reads as all ones. -/
def read (kb : Keyboard) (line : UInt8) : UInt8 :=
  match kb.pressed[line.toNat]? with
  | some keys => ~~~keys
  | none => 0xFF

/-- What the selected line reads as. -/
def selected (kb : Keyboard) : UInt8 := kb.read kb.line

end Keyboard

end AmstradCpc
