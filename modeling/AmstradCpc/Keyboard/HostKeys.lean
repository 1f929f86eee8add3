/-
The keys of the computer that the program runs on. They are named by the
character that they type or by a name of their own, in small or capital
letters, and each stands for a key of the emulated machine. For the letters
this depends on the layout, so that the machine types what the key says.
-/
import AmstradCpc.Config.Choice
import AmstradCpc.Keyboard

namespace AmstradCpc

inductive Layout where
  | qwerty
  | azerty
  | qwertz
  deriving DecidableEq, Repr, Inhabited

def Language.layout : Language → Layout
  | .french => .azerty
  | .german => .qwertz
  | .english => .qwerty
  | .spanish => .qwerty
  | .danish => .qwerty

namespace Layout

/-- The keys that are elsewhere than on the English keyboard. -/
def moved : Layout → List (String × Key)
  | .qwerty => []
  | .azerty => [("a", .q), ("q", .a), ("z", .w), ("w", .z), ("m", .semicolon), (",", .m)]
  | .qwertz => [("y", .z), ("z", .y)]

/-- The keys of the English keyboard. -/
def common : List (String × Key) := [
  ("a", .a), ("b", .b), ("c", .c), ("d", .d), ("e", .e), ("f", .f), ("g", .g), ("h", .h), ("i", .i),
  ("j", .j), ("k", .k), ("l", .l), ("m", .m), ("n", .n), ("o", .o), ("p", .p), ("q", .q), ("r", .r),
  ("s", .s), ("t", .t), ("u", .u), ("v", .v), ("w", .w), ("x", .x), ("y", .y), ("z", .z),
  ("0", .n0), ("1", .n1), ("2", .n2), ("3", .n3), ("4", .n4),
  ("5", .n5), ("6", .n6), ("7", .n7), ("8", .n8), ("9", .n9),
  ("[", .leftBracket), ("]", .rightBracket), ("\\", .backslash), ("^", .caret), ("-", .minus),
  ("@", .at), (";", .semicolon), (":", .colon), ("/", .slash), (".", .period), (",", .comma),
  (" ", .space), ("space", .space),
  ("enter", .return), ("return", .return), ("kp_enter", .enter),
  ("kp_period", .fDot), ("kp_decimal", .fDot), ("escape", .escape), ("esc", .escape),
  ("tab", .tab), ("capslock", .capsLock),
  ("shift", .shift), ("shift_l", .shift), ("shift_r", .shift),
  ("control", .control), ("control_l", .control), ("control_r", .control),
  ("alt", .copy), ("alt_l", .copy), ("copy", .copy),
  ("backspace", .del), ("delete", .del), ("home", .clr), ("clr", .clr),
  ("up", .up), ("down", .down), ("left", .left), ("right", .right),
  ("f0", .f0), ("f1", .f1), ("f2", .f2), ("f3", .f3), ("f4", .f4),
  ("f5", .f5), ("f6", .f6), ("f7", .f7), ("f8", .f8), ("f9", .f9),
  ("kp_0", .f0), ("kp_1", .f1), ("kp_2", .f2), ("kp_3", .f3), ("kp_4", .f4),
  ("kp_5", .f5), ("kp_6", .f6), ("kp_7", .f7), ("kp_8", .f8), ("kp_9", .f9),
  ("joy_up", .joyUp), ("joy_down", .joyDown), ("joy_left", .joyLeft), ("joy_right", .joyRight),
  ("fire1", .fire1), ("fire2", .fire2), ("fire3", .fire3)]

/-- The key that a host key stands for, if any. -/
def key? (layout : Layout) (hostName : String) : Option Key :=
  let name := hostName.map Char.toLower
  (layout.moved.lookup name).or (common.lookup name)

end Layout

end AmstradCpc
