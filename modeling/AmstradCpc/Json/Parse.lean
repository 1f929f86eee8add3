/-
Reading JSON. A text is one value with nothing but blanks around it. Every
function here takes the characters that are left and answers those that remain
after what it read, or nothing if it cannot read that.
-/
import AmstradCpc.Json.Value

namespace AmstradCpc.JsonValue

abbrev Reader (α : Type) := List Char → Option (α × List Char)

def isBlank (c : Char) : Bool := c == ' ' || c == '\t' || c == '\n' || c == '\r'

def skipBlanks (text : List Char) : List Char := text.dropWhile isBlank

/-! ## Numbers -/

/-- At least one digit. -/
def digits : Reader (List Char) := fun text =>
  match text.takeWhile Char.isDigit with
  | [] => none
  | found => some (found, text.dropWhile Char.isDigit)

/-- A whole part has no needless zero in front. -/
def wholePart : Reader (List Char)
  | '0' :: rest => some (['0'], rest)
  | text => digits text

/-- What a sign in front of it is followed by. -/
def exponentPart (e : Char) : Reader (List Char)
  | '+' :: rest => (digits rest).map fun (found, rest) => (e :: '+' :: found, rest)
  | '-' :: rest => (digits rest).map fun (found, rest) => (e :: '-' :: found, rest)
  | rest => (digits rest).map fun (found, rest) => (e :: found, rest)

def fraction : Reader (List Char)
  | '.' :: rest => (digits rest).map fun (found, rest) => ('.' :: found, rest)
  | text => some ([], text)

def exponent : Reader (List Char)
  | 'e' :: rest => exponentPart 'e' rest
  | 'E' :: rest => exponentPart 'E' rest
  | text => some ([], text)

def unsignedNumber : Reader (List Char) := fun text => do
  let (whole, rest) ← wholePart text
  let (fraction, rest) ← fraction rest
  let (exponent, rest) ← exponent rest
  return (whole ++ fraction ++ exponent, rest)

def readNumber : Reader (List Char)
  | '-' :: rest => (unsignedNumber rest).map fun (found, rest) => ('-' :: found, rest)
  | text => unsignedNumber text

/-! ## Strings -/

/-- A string after its first quotation mark. Control characters must not stand
in it as they are. -/
def stringBody : Reader (List Char)
  | [] => none
  | '"' :: rest => some ([], rest)
  | '\\' :: 'u' :: a :: b :: c :: d :: rest =>
    if (hexQuad? [a, b, c, d]).isSome then
      (stringBody rest).map fun (found, rest) => ('\\' :: 'u' :: a :: b :: c :: d :: found, rest)
    else none
  | '\\' :: c :: rest =>
    if (escaped? c).isSome then (stringBody rest).map fun (found, rest) => ('\\' :: c :: found, rest)
    else none
  | c :: rest =>
    if c.toNat < 0x20 || c == '\\' then none
    else (stringBody rest).map fun (found, rest) => (c :: found, rest)

def readString : Reader (List Char)
  | '"' :: rest => stringBody rest
  | _ => none

/-! ## Values -/

/-- The word that a value is written as. -/
def readWord (w : List Char) (v : JsonValue) : Reader JsonValue := fun text =>
  if w.isPrefixOf text then some (v, text.drop w.length) else none

mutual

/-- A value that is nested at most `fuel` deep, counting its members as well. -/
def readValue (fuel : Nat) (text : List Char) : Option (JsonValue × List Char) :=
  match fuel with
  | 0 => none
  | fuel + 1 =>
    match text with
    | 'n' :: _ => readWord ['n', 'u', 'l', 'l'] .null text
    | 't' :: _ => readWord ['t', 'r', 'u', 'e'] (.bool true) text
    | 'f' :: _ => readWord ['f', 'a', 'l', 's', 'e'] (.bool false) text
    | '"' :: rest => (stringBody rest).map fun (found, rest) => (.string found, rest)
    | '[' :: rest =>
      match skipBlanks rest with
      | ']' :: rest => some (.array [], rest)
      | rest => (readItems fuel rest).map fun (found, rest) => (.array found, rest)
    | '\x7b' :: rest =>
      match skipBlanks rest with
      | '\x7d' :: rest => some (.object [], rest)
      | rest => (readMembers fuel rest).map fun (found, rest) => (.object found, rest)
    | _ => (readNumber text).map fun (found, rest) => (.number found, rest)

/-- The items of an array up to its end; there is at least one. -/
def readItems (fuel : Nat) (text : List Char) : Option (List JsonValue × List Char) :=
  match fuel with
  | 0 => none
  | fuel + 1 => do
    let (item, rest) ← readValue fuel text
    match skipBlanks rest with
    | ']' :: rest => some ([item], rest)
    | ',' :: rest => do
      let (others, rest) ← readItems fuel (skipBlanks rest)
      return (item :: others, rest)
    | _ => none

/-- The members of an object up to its end; there is at least one. -/
def readMembers (fuel : Nat) (text : List Char) : Option (List (List Char × JsonValue) × List Char) :=
  match fuel with
  | 0 => none
  | fuel + 1 => do
    let (name, rest) ← readString text
    let ':' :: rest := skipBlanks rest | none
    let (item, rest) ← readValue fuel (skipBlanks rest)
    match skipBlanks rest with
    | '\x7d' :: rest => some ([(name, item)], rest)
    | ',' :: rest => do
      let (others, rest) ← readMembers fuel (skipBlanks rest)
      return ((name, item) :: others, rest)
    | _ => none

end

/-- The value that a whole text is. A value is never nested deeper than its
text is long, nor has more members. -/
def parse? (text : String) : Option JsonValue := do
  let chars := text.toList
  let (found, rest) ← readValue (2 * chars.length + 2) (skipBlanks chars)
  if (skipBlanks rest).isEmpty then some found else none

end AmstradCpc.JsonValue
