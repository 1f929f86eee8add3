/-
Reading a written pattern from left to right. The reader knows how far it is,
which flags are set, and what it has found that is well written but cannot be
had; such a fault counts only if nothing turns out to be written wrongly.
-/
import AmstradCpc.Text.Blank
import AmstradCpc.Text.Number
import AmstradCpc.Text.Regex
import AmstradCpc.Text.Regex.Flaw

namespace AmstradCpc.Text.Regex

structure Flags where
  ignoreCase : Bool := false
  /-- Lines begin and end within the text. -/
  multiLine : Bool := false
  /-- Line breaks are characters like others. -/
  dotAll : Bool := false
  /-- A carriage return breaks lines, too. -/
  anyLine : Bool := false
  /-- Characters of all scripts are meant, not bytes. -/
  allScripts : Bool := true
  /-- Blanks and comments are passed over. -/
  spaced : Bool := false
  deriving DecidableEq, Repr, Inhabited

/-- Sets a flag by its letter; the order of repetitions has no flag here, since
it does not decide whether something is found. -/
def Flags.set (f : Flags) (letter : Char) (on : Bool) : Flags :=
  match letter with
  | 'i' => { f with ignoreCase := on }
  | 'm' => { f with multiLine := on }
  | 's' => { f with dotAll := on }
  | 'R' => { f with anyLine := on }
  | 'u' => { f with allScripts := on }
  | 'x' => { f with spaced := on }
  | _ => f

/-- Sets the flags before a minus sign, and clears those after it. -/
def Flags.apply (f : Flags) (on : Bool) : List Char → Flags
  | [] => f
  | '-' :: rest => f.apply false rest
  | c :: rest => (f.set c on).apply on rest

structure Reader where
  rest : List Char
  place : Nat := 0
  flags : Flags := {}
  /-- The names of groups so far, and where they stand. -/
  names : List (List Char × Span) := []
  /-- The first thing that cannot be had. -/
  fault : Option Flaw := none
  /-- The edges of words of all scripts were asked for. -/
  words : Bool := false
  deriving Inhabited

abbrev Reading := StateT Reader (Except Flaw)

namespace Reading

/-! ## Failing -/

def failAt {α : Type} (cause : Cause) (start stop : Nat) (earlier : Option Span := none) : Reading α :=
  throw (.written cause ⟨start, stop⟩ earlier)

def here : Reading Nat := return (← get).place

/-- Fails at the place where the reader is. -/
def failHere {α : Type} (cause : Cause) : Reading α := do failAt cause (← here) (← here)

/-- Fails at the next character. -/
def failNext {α : Type} (cause : Cause) : Reading α := do failAt cause (← here) ((← here) + 1)

/-- Takes note of something that cannot be had. -/
def blame (cause : Cause) (span : Span) : Reading Unit := modify fun r =>
  { r with fault := r.fault <|> some (.written cause span none) }

/-! ## Moving -/

/-- The next character. -/
def char? : Reading (Option Char) := return (← get).rest.head?

def atEnd : Reading Bool := return (← get).rest.isEmpty

/-- What is left after blanks and comments; a comment lasts to the end of its
line. -/
def withoutBlanks (comment : Bool) : List Char → List Char
  | [] => []
  | c :: rest =>
    if comment then withoutBlanks (c != '\n') rest
    else if c == '#' then withoutBlanks true rest
    else if isBlank c then withoutBlanks false rest
    else c :: rest

/-- Goes on to what is left. -/
def goTo (rest : List Char) : Reading Unit := modify fun r =>
  { r with rest, place := r.place + (r.rest.length - rest.length) }

/-- Passes over the next character. -/
def skip : Reading Unit := do goTo (← get).rest.tail

/-- Passes over blanks and comments, if the flags say so. -/
def skipBlanks : Reading Unit := do
  let r ← get
  if r.flags.spaced then goTo (withoutBlanks false r.rest)

/-- Passes over the next character and the blanks behind it. -/
def next : Reading Unit := do
  skip
  skipBlanks

/-- The character after the next one and the blanks behind that. -/
def afterNext? : Reading (Option Char) := do
  let r ← get
  return (if r.flags.spaced then withoutBlanks false r.rest.tail else r.rest.tail).head?

/-- Passes over some characters, if they come next. -/
def skipText (text : List Char) : Reading Bool := do
  let r ← get
  if text.isPrefixOf r.rest then
    goTo (r.rest.drop text.length)
    return true
  else return false

/-- The characters that come next, as long as a condition holds of them; at
most `n`. -/
def takeWhile (p : Char → Bool) : Nat → Reading (List Char)
  | 0 => return []
  | n + 1 => do
    match ← char? with
    | some c =>
      if p c then
        next
        return c :: (← takeWhile p n)
      else return []
    | none => return []

/-- The characters that come next, as long as a condition holds of them. -/
def takeAll (p : Char → Bool) : Reading (List Char) := do takeWhile p (← get).rest.length

end Reading

end AmstradCpc.Text.Regex
