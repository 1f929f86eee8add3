/-
What is written with a backslash: characters by their number or letter, sets of
characters, and places.
-/
import AmstradCpc.Text.Regex.Reader

namespace AmstradCpc.Text.Regex

/-- The sets of characters that have a letter. -/
inductive Family where
  | digits
  | blanks
  | wordChars
  deriving DecidableEq, Repr, Inhabited

def Family.ascii : Family → CharSet
  | .digits => .range '0' '9'
  | .blanks => .ofRanges [('\t', '\r'), (' ', ' ')]
  | .wordChars => .ofRanges [('0', '9'), ('A', 'Z'), ('_', '_'), ('a', 'z')]

/-- The smallest parts of a pattern. -/
inductive Atom where
  /-- A character; perhaps written as the number of a byte. -/
  | char (c : Char) (byte : Bool)
  | place (p : Place)
  | family (f : Family) (negated : Bool)
  /-- Characters by a property, which cannot be had. -/
  | property (cause : Cause)
  /-- Any character but a line break. -/
  | dot
  deriving DecidableEq, Repr, Inhabited

open Reading

/-! ## Characters by number -/

def isHex (c : Char) : Bool := (digitValue? 16 c).isSome

/-- The character with a number that stands between two places. -/
def charOfHex (digits : List Char) (start stop : Nat) : Reading Char :=
  match digitsValue? 16 digits with
  | some n => if n.isValidChar then return Char.ofNat n else failAt .hexCharacter start stop
  | none => failAt .hexDigit start stop

/-- So many digits. -/
def readDigits : Nat → Reading (List Char)
  | 0 => return []
  | n + 1 => do
    match ← char? with
    | none => failHere .escapeUnfinished
    | some c =>
      if isHex c then
        next
        return c :: (← readDigits n)
      else failNext .hexDigit

/-- The number in braces. -/
def readBraces : Reading Char := do
  let brace ← here
  next
  let start ← here
  let digits ← takeAll isHex
  match ← char? with
  | none => failAt .escapeUnfinished brace (← here)
  | some '\x7d' =>
    let stop ← here
    next
    if digits.isEmpty then failAt .hexEmpty brace (← here)
    else charOfHex digits start stop
  | some _ => failNext .hexDigit

/-- The character after its letter; how many digits there are hangs on that. -/
def readHex (count : Nat) : Reading Atom := do
  next
  match ← char? with
  | none => failHere .escapeUnfinished
  | some '\x7b' => return .char (← readBraces) false
  | some _ =>
    let start ← here
    let digits ← readDigits count
    return .char (← charOfHex digits start (← here)) (count == 2)

/-! ## Properties -/

/-- A name without what does not count in it. -/
def plainName (name : List Char) : List Char :=
  let lower := (name.map Char.toLower).filter fun c => c.toNat < 0x80
  let bare := if ['i', 's'].isPrefixOf lower then lower.drop 2 else lower
  bare.filter fun c => !(c == ' ' || c == '_' || c == '-')

/-- Why a property cannot be had: of some names only the value is missing. -/
def propertyCause (name : List Char) : Cause :=
  if [['c', 'f'], ['s', 'c'], ['l', 'c']].contains (plainName name) then .propertyValue else .property

def readProperty : Reading Atom := do
  next
  match ← char? with
  | none => failHere .escapeUnfinished
  | some '\x7b' =>
    next
    let name ← takeAll (· != '\x7d')
    if ← atEnd then failHere .escapeUnfinished
    skip
    return .property (propertyCause name)
  | some '\\' => failNext .propertyLetter
  | some c =>
    next
    return .property (propertyCause [c])

/-! ## Places -/

/-- The edge of a word that has a name in braces, if these are not a number of
repetitions. -/
def readEdge (start : Nat) : Reading Place := do
  let before ← get
  match before.rest.head? with
  | some '\x7b' =>
    next
    let first ← here
    match ← char? with
    | none => failAt .edgeUnfinished start (← here)
    | some c =>
      let inName (c : Char) := c.isAlpha || c == '-'
      if inName c then
        let name ← takeAll inName
        if (← char?) != some '\x7d' then failAt .edgeUnclosed before.place (← here)
        let stop ← here
        skip
        match String.ofList name with
        | "start" => return .wordStart
        | "end" => return .wordEnd
        | "start-half" => return .wordStartHalf
        | "end-half" => return .wordEndHalf
        | _ => failAt .edgeUnknown first stop
      else
        set before
        return .wordEdge
  | _ => return .wordEdge

/-! ## All of them -/

/-- Letters and digits have a meaning of their own after a backslash, or none;
the other characters of ASCII stand for themselves, but for two. -/
def escapesItself (c : Char) : Bool :=
  c.toNat < 0x80 && !c.isAlphanum && c != '<' && c != '>'

/-- What a character after the backslash stands for, if nothing can follow. -/
def plainEscape? (c : Char) : Option Atom :=
  match c with
  | 'a' => some (.char '\x07' false)
  | 'f' => some (.char '\x0c' false)
  | 't' => some (.char '\t' false)
  | 'n' => some (.char '\n' false)
  | 'r' => some (.char '\r' false)
  | 'v' => some (.char '\x0b' false)
  | 'd' => some (.family .digits false)
  | 'D' => some (.family .digits true)
  | 's' => some (.family .blanks false)
  | 'S' => some (.family .blanks true)
  | 'w' => some (.family .wordChars false)
  | 'W' => some (.family .wordChars true)
  | 'A' => some (.place .textStart)
  | 'z' => some (.place .textEnd)
  | 'B' => some (.place .noWordEdge)
  | '<' => some (.place .wordStart)
  | '>' => some (.place .wordEnd)
  | c => if escapesItself c then some (.char c false) else none

/-- What the character after the backslash makes of it. -/
def readEscaped (start : Nat) (c : Char) : Reading Atom :=
  match c with
  | 'x' => readHex 2
  | 'u' => readHex 4
  | 'U' => readHex 8
  | 'p' => readProperty
  | 'P' => readProperty
  | 'b' => do
    skip
    return .place (← readEdge start)
  | c => do
    skip
    if c.isDigit then failAt .backreference start (← here)
    match plainEscape? c with
    | some atom => return atom
    | none => failAt .escapeUnknown start (← here)

/-- What a backslash begins, and where it stands. -/
def readEscape : Reading (Atom × Span) := do
  let start ← here
  skip
  match ← char? with
  | none => failAt .escapeUnfinished start (← here)
  | some c =>
    let atom ← readEscaped start c
    return (atom, ⟨start, ← here⟩)

end AmstradCpc.Text.Regex
