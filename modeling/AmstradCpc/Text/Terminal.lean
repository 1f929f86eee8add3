/-
What is left of a text when it goes to something that is no terminal: the
sequences that only a terminal understands are taken out, and so are controls
that neither break lines nor take room. A sequence begins with an escape
character; its form decides how far it goes.
-/
namespace AmstradCpc.Text

/-- Where in a sequence one is. -/
inductive Terminal where
  /-- In none. -/
  | ground
  /-- Behind an escape character. -/
  | escape
  /-- In an escape sequence that goes on with a letter. -/
  | escapeRest
  /-- In the parameters of a control sequence. -/
  | control
  /-- In the parameters of a device control string. -/
  | device
  /-- In a string for a device or a program. -/
  | string
  /-- In a command for the operating system. -/
  | command
  deriving DecidableEq, Repr, Inhabited

namespace Terminal

/-- A control that breaks lines or takes room. -/
def isLayout (c : Char) : Bool := c == '\t' || c == '\n' || c == '\x0c' || c == '\r'

/-- The character is left in the text. Controls for the layout are so even
within some sequences. -/
def shows (s : Terminal) (c : Char) : Bool :=
  match s with
  | .ground => isLayout c || ('\x20' ≤ c && c != '\x7f')
  | .escape | .escapeRest | .control => isLayout c
  | .device | .string | .command => false

/-- Behind an escape character. -/
def afterEscape (b : UInt8) : Terminal :=
  match b with
  | 0x50 => .device
  | 0x5B => .control
  | 0x5D => .command
  | 0x58 | 0x5E | 0x5F => .string
  | b =>
    if 0x20 ≤ b && b ≤ 0x2F then .escapeRest
    else if 0x30 ≤ b && b ≤ 0x7E then .ground
    else .escape

/-- Where one is after a byte that is not left in the text. -/
def afterByte (s : Terminal) (b : UInt8) : Terminal :=
  if b == 0x1B then .escape
  else if b == 0x18 || b == 0x1A then .ground
  else match s with
    | .ground => .ground
    | .escape => afterEscape b
    | .escapeRest => if 0x30 ≤ b && b ≤ 0x7E then .ground else .escapeRest
    | .control => if 0x40 ≤ b && b ≤ 0x7E then .ground else .control
    | .device => if 0x40 ≤ b && b ≤ 0x7E then .string else .device
    | .string => if b == 0x9C then .ground else .string
    | .command => if b == 0x07 then .ground else .command

/-- Where one is after the bytes of a character. -/
def after (s : Terminal) (c : Char) : Terminal := (String.utf8EncodeChar c).foldl afterByte s

/-- What is left of a text. Once something is left, all that follows is, up to
the next character that could not be left anywhere. -/
def left (s : Terminal) (leaving : Bool) : List Char → List Char
  | [] => []
  | c :: rest =>
    if (if leaving then .ground else s).shows c then
      c :: left (if c.toNat < 0x80 then s else .ground) true rest
    else left (s.after c) false rest

end Terminal

/-- A text without what only a terminal understands. -/
def withoutControls (text : String) : String := String.ofList (Terminal.left .ground true text.toList)

/-- A text whose lines, but for the first, are moved to the right. -/
def indented (width : Nat) (text : String) : String :=
  String.ofList (text.toList.flatMap fun c => if c = '\n' then c :: List.replicate width ' ' else [c])

end AmstradCpc.Text
