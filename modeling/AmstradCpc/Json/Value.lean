/-
JSON texts. A string and a number are kept as they are written, because what
may stand between the quotation marks, or which numbers fit, depends on who
asks; the members of an object are kept in their order, repeated names and all.
-/
namespace AmstradCpc

inductive JsonValue where
  | null
  | bool (b : Bool)
  | number (text : List Char)
  /-- The characters between the quotation marks, escapes not replaced. -/
  | string (text : List Char)
  | array (items : List JsonValue)
  | object (members : List (List Char × JsonValue))
  deriving Inhabited

namespace JsonValue

/-! ## Strings -/

def hexValue? (c : Char) : Option Nat :=
  if c.isDigit then some (c.toNat - 48)
  else if 'a' ≤ c ∧ c ≤ 'f' then some (c.toNat - 87)
  else if 'A' ≤ c ∧ c ≤ 'F' then some (c.toNat - 55)
  else none

/-- Four digits of an escape, and what follows them. -/
def hexQuad? : List Char → Option (Nat × List Char)
  | a :: b :: c :: d :: rest => do
    let digits ← [a, b, c, d].mapM hexValue?
    return (digits.foldl (fun n digit => n * 16 + digit) 0, rest)
  | _ => none

/-- The character that a backslash and one letter stand for. -/
def escaped? : Char → Option Char
  | '"' => some '"'
  | '\\' => some '\\'
  | '/' => some '/'
  | 'b' => some '\x08'
  | 'f' => some '\x0c'
  | 'n' => some '\n'
  | 'r' => some '\r'
  | 't' => some '\t'
  | _ => none

/-- A character outside the basic plane is written as two escapes; neither half
may stand alone. -/
def joinHalves? (high : Nat) (rest : List Char) : Option (Char × List Char) :=
  match rest with
  | '\\' :: 'u' :: rest => do
    let (low, rest) ← hexQuad? rest
    if 0xDC00 ≤ low ∧ low ≤ 0xDFFF then
      some (Char.ofNat (0x10000 + (high - 0xD800) * 0x400 + (low - 0xDC00)), rest)
    else none
  | _ => none

/-- The first character that a written string stands for, and the rest of it. -/
def character? : List Char → Option (Char × List Char)
  | [] => none
  | '\\' :: 'u' :: rest => do
    let (n, rest) ← hexQuad? rest
    if 0xD800 ≤ n ∧ n ≤ 0xDBFF then joinHalves? n rest
    else if 0xDC00 ≤ n ∧ n ≤ 0xDFFF then none
    else some (Char.ofNat n, rest)
  | '\\' :: c :: rest => (escaped? c).map (·, rest)
  | c :: rest => some (c, rest)

/-- The characters of a written string, of which there are at most `fuel`. -/
def charactersUpTo : Nat → List Char → Option (List Char)
  | _, [] => some []
  | 0, _ :: _ => none
  | fuel + 1, text => do
    let (c, rest) ← character? text
    return c :: (← charactersUpTo fuel rest)

/-- What a written string stands for, if its escapes are sound. -/
def decode? (text : List Char) : Option String :=
  (charactersUpTo text.length text).map String.ofList

end JsonValue

end AmstradCpc
