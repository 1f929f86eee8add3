/-
Sets of characters in brackets: single characters, ranges, named sets, further
sets in brackets, and what two of these have in common or not.
-/
import AmstradCpc.Text.Regex.Escape

namespace AmstradCpc.Text.Regex

open Reading

/-- A part of a set: what is in it, and where it stands. -/
structure Part where
  set : CharSet
  /-- Something is in it. -/
  filled : Bool
  span : Span
  deriving DecidableEq, Repr, Inhabited

/-- Parts side by side; the stretch they take begins with the first. -/
structure Union where
  part : Part
  /-- There has been no part yet. -/
  fresh : Bool
  deriving DecidableEq, Repr, Inhabited

namespace Union

def emptyAt (place : Nat) : Union := ⟨⟨.none, false, ⟨place, place⟩⟩, true⟩

def add (u : Union) (p : Part) : Union :=
  let start := if u.fresh then p.span.start else u.part.span.start
  ⟨⟨.union u.part.set p.set, u.part.filled || p.filled, ⟨start, p.span.stop⟩⟩, false⟩

end Union

/-- How two sides make one set. -/
inductive SetOperation where
  | inter
  | diff
  | symmDiff
  deriving DecidableEq, Repr, Inhabited

def SetOperation.apply : SetOperation → CharSet → CharSet → CharSet
  | .inter => .inter
  | .diff => .diff
  | .symmDiff => .symmDiff

/-- A bracket that has been opened and not yet closed. -/
structure Bracket where
  start : Nat
  /-- Behind what it opens with. -/
  headStop : Nat
  negated : Bool
  /-- The side before the last operation. -/
  left : Option (SetOperation × Part) := none
  /-- What has been read since. -/
  union : Union
  deriving Inhabited

/-! ## What can be had -/

/-- Adds the other case of letters, if that is to be ignored. -/
def foldCase (p : Part) : Reading Part := do
  let flags := (← get).flags
  if !flags.ignoreCase then return p
  else if flags.allScripts then
    if p.filled then blame .allScriptsCase p.span
    return p
  else return { p with set := .eitherCase p.set }

/-- Takes the other characters, if the part is negated. -/
def negate (negated : Bool) (p : Part) : Reading Part := do
  let p := if negated then { p with set := .compl p.set, filled := true } else p
  if !(← get).flags.allScripts && !p.set.isAscii then blame .strayBytes p.span
  return p

/-- One of the sets that have a letter. -/
def familyPart (f : Family) (negated : Bool) (span : Span) : Reading Part := do
  if (← get).flags.allScripts then blame .allScripts span
  negate negated ⟨f.ascii, true, span⟩

/-- A set by a property. -/
def blameProperty (cause : Cause) (span : Span) : Reading Unit := do
  blame (if (← get).flags.allScripts then cause else .onlyAscii) span

/-- Whether a character of a set can be had. -/
def checkChar (c : Char) (byte : Bool) (span : Span) : Reading Unit := do
  if !(← get).flags.allScripts && 0x80 ≤ c.toNat then
    blame (if byte then .strayBytes else .onlyAscii) span

/-! ## Parts -/

/-- What may stand by itself, or at an end of a range. -/
def readItem : Reading (Atom × Span) := do
  match ← char? with
  | some '\\' => readEscape
  | some c =>
    let start ← here
    skip
    return (.char c false, ⟨start, start + 1⟩)
  | none => failHere .setUnclosed

def itemPart : Atom × Span → Reading Part
  | (.char c byte, span) => do
    checkChar c byte span
    return ⟨.single c, true, span⟩
  | (.family f negated, span) => familyPart f negated span
  | (.property cause, span) => do
    blameProperty cause span
    return ⟨.none, false, span⟩
  | (_, span) => failAt .setEscape span.start span.stop

def rangeEnd : Atom × Span → Reading (Char × Bool)
  | (.char c byte, _) => return (c, byte)
  | (_, span) => failAt .rangeEnd span.start span.stop

def rangePart (a b : Atom × Span) : Reading Part := do
  let span : Span := ⟨a.2.start, b.2.stop⟩
  let (first, firstByte) ← rangeEnd a
  let (last, lastByte) ← rangeEnd b
  if last < first then failAt .rangeOrder span.start span.stop
  checkChar first firstByte a.2
  checkChar last lastByte b.2
  return ⟨.range first last, true, span⟩

/-- The named sets. -/
def named? (name : List Char) : Option CharSet :=
  let ranges : List (Char × Char) :=
    match String.ofList name with
    | "alnum" => [('0', '9'), ('A', 'Z'), ('a', 'z')]
    | "alpha" => [('A', 'Z'), ('a', 'z')]
    | "ascii" => [('\x00', '\x7f')]
    | "blank" => [('\t', '\t'), (' ', ' ')]
    | "cntrl" => [('\x00', '\x1f'), ('\x7f', '\x7f')]
    | "digit" => [('0', '9')]
    | "graph" => [('!', '~')]
    | "lower" => [('a', 'z')]
    | "print" => [(' ', '~')]
    | "punct" => [('!', '/'), (':', '@'), ('\x5b', '\x60'), ('\x7b', '~')]
    | "space" => [('\t', '\r'), (' ', ' ')]
    | "upper" => [('A', 'Z')]
    | "word" => [('0', '9'), ('A', 'Z'), ('_', '_'), ('a', 'z')]
    | "xdigit" => [('0', '9'), ('A', 'F'), ('a', 'f')]
    | _ => []
  if ranges.isEmpty then none else some (.ofRanges ranges)

/-- A named set, if one comes next; otherwise the reader stays where it is. -/
def readNamed? : Reading (Option Part) := do
  let before ← get
  if ← skipText ['[', ':'] then
    let negated ← skipText ['^']
    let name := (← get).rest.takeWhile (· != ':')
    goTo ((← get).rest.drop name.length)
    if ← skipText [':', ']'] then
      match named? name with
      | some set =>
        let p ← foldCase ⟨set, true, ⟨before.place, ← here⟩⟩
        return some (← negate negated p)
      | none => pure ()
  set before
  return none

/-- One character, or a range. -/
def readPart (unclosed : Reading Part) : Reading Part := do
  let first ← readItem
  skipBlanks
  if ← atEnd then unclosed
  else if (← char?) != some '-' || [some ']', some '-'].contains (← afterNext?) then itemPart first
  else
    next
    if ← atEnd then unclosed
    else rangePart first (← readItem)

/-! ## Brackets -/

/-- The minus signs at the beginning of a bracket; they stand for themselves. -/
def readDashes (start : Nat) : Nat → Union → Reading Union
  | 0, u => return u
  | n + 1, u => do
    if (← char?) != some '-' then return u
    let place ← here
    next
    if ← atEnd then failAt .setUnclosed start start
    readDashes start n (u.add ⟨.single '-', true, ⟨place, place + 1⟩⟩)

/-- Opens a bracket. -/
def openBracket : Reading Bracket := do
  let start ← here
  let nextOrFail : Reading Unit := do
    next
    if ← atEnd then failAt .setUnclosed start (← here)
  nextOrFail
  let negated := (← char?) == some '^'
  if negated then nextOrFail
  let u ← readDashes start (← get).rest.length (.emptyAt (← here))
  let place ← here
  if u.fresh && (← char?) == some ']' then
    nextOrFail
    return ⟨start, ← here, negated, none, u.add ⟨.single ']', true, ⟨place, place + 1⟩⟩⟩
  return ⟨start, place, negated, none, u⟩

/-- The set so far, once its last operation is applied. -/
def Bracket.settle (b : Bracket) : Reading Part :=
  match b.left with
  | none => return b.union.part
  | some (operation, left) => do
    let right ← foldCase b.union.part
    let left ← foldCase left
    return ⟨operation.apply left.set right.set, left.filled || right.filled, ⟨left.span.start, right.span.stop⟩⟩

/-- Closes a bracket. -/
def Bracket.close (b : Bracket) : Reading Part := do
  let p ← b.settle
  skip
  negate b.negated (← foldCase { p with span := ⟨b.start, ← here⟩ })

/-- Begins the other side of an operation. -/
def Bracket.operate (b : Bracket) (operation : SetOperation) : Reading Bracket := do
  let left ← b.settle
  skip
  skip
  return { b with left := some (operation, left), union := .emptyAt (← here) }

def Bracket.add (b : Bracket) (p : Part) : Bracket := { b with union := b.union.add p }

/-- Reads on in a bracket, within others, up to the end of the outermost. Every
round passes over a character at least. -/
def readBracket : Nat → Bracket → List Bracket → Reading Part
  | 0, b, _ => failAt .setUnclosed b.start b.headStop
  | n + 1, b, outer => do
    skipBlanks
    let unclosed {α : Type} : Reading α := failAt .setUnclosed b.start b.headStop
    match (← get).rest with
    | [] => unclosed
    | '[' :: _ =>
      match ← readNamed? with
      | some p => readBracket n (b.add p) outer
      | none => readBracket n (← openBracket) (b :: outer)
    | ']' :: _ =>
      let p ← b.close
      match outer with
      | [] => return p
      | b :: outer => readBracket n (b.add p) outer
    | '&' :: '&' :: _ => readBracket n (← b.operate .inter) outer
    | '-' :: '-' :: _ => readBracket n (← b.operate .diff) outer
    | '~' :: '~' :: _ => readBracket n (← b.operate .symmDiff) outer
    | _ => readBracket n (b.add (← readPart unclosed)) outer

/-- A set in brackets. -/
def readSet : Reading CharSet := do
  let b ← openBracket
  return (← readBracket ((← get).rest.length + 1) b []).set

end AmstradCpc.Text.Regex
