/-
Text between quotation marks, as messages show what was given. Characters that
cannot be shown as they are have an escape.
-/
import AmstradCpc.Text.Hex
import AmstradCpc.Text.Printable

namespace AmstradCpc.Text

/-- How one character is written between the marks. -/
def quotedChar (c : Char) : List Char :=
  match c with
  | '\x00' => ['\\', '0']
  | '\t' => ['\\', 't']
  | '\n' => ['\\', 'n']
  | '\r' => ['\\', 'r']
  | '"' => ['\\', '"']
  | '\\' => ['\\', '\\']
  | c =>
    if isPrintable c then [c]
    else ['\\', 'u', '\x7b'] ++ hexDigits false c.toNat ++ ['\x7d']

def quoted (s : String) : String := String.ofList ('"' :: s.toList.flatMap quotedChar ++ ['"'])

end AmstradCpc.Text
