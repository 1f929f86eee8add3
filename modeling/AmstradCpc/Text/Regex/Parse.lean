/-
From a written pattern to what it stands for: groups, alternatives, repetitions
and flags.
-/
import AmstradCpc.Text.Regex.Bracket

namespace AmstradCpc.Text.Regex

open Reading

/-! ## Atoms by themselves -/

/-- A character. -/
def charRegex (c : Char) (byte : Bool) (span : Span) : Reading Regex := do
  let flags := (← get).flags
  if flags.allScripts then
    if flags.ignoreCase then blame .allScriptsCase span
  else if byte && 0x80 ≤ c.toNat then blame .strayBytes span
  return .oneOf (if flags.ignoreCase then .eitherCase (.single c) else .single c)

/-- Any character, except for line breaks. -/
def dotRegex (span : Span) : Reading Regex := do
  let flags := (← get).flags
  if !flags.allScripts then blame .strayBytes span
  let breaks : CharSet :=
    if flags.dotAll then .none
    else if flags.anyLine then .union (.single '\n') (.single '\r')
    else .single '\n'
  return .oneOf (.compl breaks)

def placeRegex (p : Place) : Reading Regex := do
  if p.asksForWords && (← get).flags.allScripts then modify ({ · with words := true })
  return .place p

def atomRegex : Atom × Span → Reading Regex
  | (.char c byte, span) => charRegex c byte span
  | (.place p, _) => placeRegex p
  | (.family f negated, span) => return .oneOf (← familyPart f negated span).set
  | (.property cause, span) => do
    blameProperty cause span
    return .empty
  | (.dot, span) => dotRegex span

/-- What a line break is decides where lines begin and end. -/
def lineRegex (one any whole : Place) : Reading Regex := do
  let flags := (← get).flags
  return .place (if !flags.multiLine then whole else if flags.anyLine then any else one)

/-- One character, or what stands for one. -/
def readAtom (c : Char) : Reading Regex := do
  let start ← here
  match c with
  | '\\' => atomRegex (← readEscape)
  | '.' =>
    skip
    atomRegex (.dot, ⟨start, start + 1⟩)
  | '^' =>
    skip
    lineRegex .lineStart .anyLineStart .textStart
  | '$' =>
    skip
    lineRegex .lineEnd .anyLineEnd .textEnd
  | c =>
    skip
    atomRegex (.char c false, ⟨start, start + 1⟩)

/-! ## Repetitions -/

/-- Which of the ways to repeat is tried first does not matter here. -/
def skipPreference : Reading Unit := do
  let _ ← skipText ['?']

/-- A number with blanks around it; what is wrong with it may count only later. -/
def readCount : Reading (Except Flaw Nat) := do
  let _ ← takeAll isBlank
  let start ← here
  let digits ← takeAll Char.isDigit
  let span : Span := ⟨start, ← here⟩
  let _ ← takeAll isBlank
  match digitsValue? 10 digits with
  | some n =>
    if digits.isEmpty then return .error (.written .countMissing span none)
    else if n < UInt32.size then return .ok n
    else return .error (.written .countTooLarge span none)
  | none => return .error (.written .countTooLarge span none)

/-- How often, between braces. -/
def readCounts : Reading (Nat × Option Nat) := do
  let start ← here
  let unclosed {α : Type} : Reading α := do failAt .countUnclosed start (← here)
  next
  if ← atEnd then unclosed
  let least ← readCount
  if ← atEnd then unclosed
  let counts ← (do
    if (← char?) == some ',' then
      next
      if ← atEnd then unclosed
      if (← char?) == some '\x7d' then return (← least, none)
      else
        let least ← least
        return (least, some (← ← readCount))
    else
      let n ← least
      return (n, some n) : Reading (Nat × Option Nat))
  if (← char?) != some '\x7d' then unclosed
  next
  skipPreference
  if counts.2.any (· < counts.1) then failAt .countOrder start (← here)
  return counts

/-! ## Flags and names -/

/-- The letters of flags, and the minus sign before those to be cleared. -/
def isFlagChar (c : Char) : Bool := ['-', 'i', 'm', 's', 'U', 'u', 'R', 'x'].contains c

/-- Letters of flags and minus signs, up to the end of the list. -/
def readFlags : Nat → List (Char × Nat) → Reading (List Char)
  | 0, _ => failHere .flagMissing
  | n + 1, before => do
    match ← char? with
    | none => failHere .flagMissing
    | some c =>
      if c == ':' || c == ')' then
        match before with
        | ('-', sign) :: _ => failAt .negationDangling sign (sign + 1)
        | _ => return (before.map (·.1)).reverse
      else
        let place ← here
        if !isFlagChar c then failNext .flagUnknown
        match before.find? (·.1 == c) with
        | some (_, first) =>
          failAt (if c == '-' then .negationTwice else .flagTwice) place (place + 1) (some ⟨first, first + 1⟩)
        | none =>
          skip
          readFlags n ((c, place) :: before)

/-- The characters that names are made of. -/
def isNameChar (first : Bool) (c : Char) : Bool :=
  c == '_' || c.isAlpha || 0x80 ≤ c.toNat || (!first && (c.isDigit || c == '.' || c == '[' || c == ']'))

def readNameChars : Nat → Bool → Reading (List Char)
  | 0, _ => failHere .nameUnclosed
  | n + 1, first => do
    match ← char? with
    | none => failHere .nameUnclosed
    | some '>' => return []
    | some c =>
      if isNameChar first c then
        skip
        return c :: (← readNameChars n false)
      else failNext .nameCharacter

/-- The name of a group; no two groups have the same. -/
def readName : Reading Unit := do
  let start ← here
  let name ← readNameChars ((← get).rest.length + 1) true
  let span : Span := ⟨start, ← here⟩
  skip
  if name.isEmpty then failAt .nameEmpty start start
  match (← get).names.lookup name with
  | some first => failAt .nameTwice span.start span.stop (some first)
  | none => modify fun r => { r with names := (name, span) :: r.names }

/-! ## Groups -/

/-- Alternatives that have been read, and the parts of the next one, the last
part first. Flags by themselves are a part without a pattern. -/
structure Branches where
  before : Option Regex := none
  parts : List (Option Regex) := []
  deriving Inhabited

namespace Branches

/-- The parts one after the other. -/
def last (b : Branches) : Regex :=
  b.parts.foldl (fun rest part => match part with
    | some r => if rest == .empty then r else .seq r rest
    | none => rest) .empty

def regex (b : Branches) : Regex :=
  match b.before with
  | some r => .alt r b.last
  | none => b.last

def next (b : Branches) : Branches := { before := some b.regex }

def add (b : Branches) (part : Option Regex) : Branches := { b with parts := part :: b.parts }

end Branches

/-- A group that has been opened and not yet closed. -/
structure Group where
  start : Nat
  /-- The flags outside of it. -/
  flags : Flags
  outside : Branches
  deriving Inhabited

/-- Reads what a group begins with. The result says whether there is one: flags
by themselves hold from now on to the end of the group around them. -/
def openGroup : Reading Bool := do
  let start ← here
  skip
  skipBlanks
  for text in [['?', '='], ['?', '!'], ['?', '<', '='], ['?', '<', '!']] do
    if ← skipText text then failAt .lookAround start (← here)
  let inner ← here
  if ← skipText ['?', 'P', '<'] <||> skipText ['?', '<'] then
    readName
    return true
  else if ← skipText ['?'] then
    if ← atEnd then failAt .groupUnclosed start (start + 1)
    let letters ← readFlags ((← get).rest.length + 1) []
    let alone := (← char?) == some ')'
    skip
    if alone && letters.isEmpty then failAt .nothingRepeated inner inner
    modify fun r => { r with flags := r.flags.apply true letters }
    return !alone
  else return true

/-- Takes the last part, which is to be repeated. -/
def Branches.takePart (b : Branches) : Reading (Regex × Branches) :=
  match b.parts with
  | some r :: parts => return (r, { b with parts })
  | _ => failHere .nothingRepeated

/-- Reads on in a group, within others, up to the end of the pattern. Every
round passes over a character at least. -/
def readGroups : Nat → Branches → List Group → Reading Regex
  | 0, _, _ => failHere .groupUnclosed
  | n + 1, b, outer => do
    skipBlanks
    let repeated (least : Nat) (most : Option Nat) : Reading Regex := do
      let (r, b) ← b.takePart
      skip
      skipPreference
      readGroups n (b.add (some (.times r least most))) outer
    match ← char? with
    | none =>
      match outer with
      | [] => return b.regex
      | g :: _ => failAt .groupUnclosed g.start (g.start + 1)
    | some '(' =>
      let before ← get
      if ← openGroup then readGroups n {} (⟨before.place, before.flags, b⟩ :: outer)
      else readGroups n (b.add none) outer
    | some ')' =>
      match outer with
      | [] => failNext .groupUnopened
      | g :: outer =>
        modify ({ · with flags := g.flags })
        skip
        readGroups n (g.outside.add (some b.regex)) outer
    | some '|' =>
      skip
      readGroups n b.next outer
    | some '[' =>
      let set ← readSet
      readGroups n (b.add (some (.oneOf set))) outer
    | some '?' => repeated 0 (some 1)
    | some '*' => repeated 0 none
    | some '+' => repeated 1 none
    | some '\x7b' =>
      let (r, b) ← b.takePart
      let (least, most) ← readCounts
      readGroups n (b.add (some (.times r least most))) outer
    | some c => readGroups n (b.add (some (← readAtom c))) outer

/-! ## Whole patterns -/

/-- What a written pattern stands for, or what is wrong with it. -/
def parse (pattern : List Char) : Except Flaw Regex := do
  let (r, reader) ← (readGroups (pattern.length + 1) {} []).run { rest := pattern }
  match reader.fault with
  | some flaw => .error flaw
  | none => if reader.words then .error .wordsOfAllScripts else .ok r

end AmstradCpc.Text.Regex
