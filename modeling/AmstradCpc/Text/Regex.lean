/-
Patterns for stretches of text, and the search for them. All ways to match are
followed at once: a pattern takes the set of places at which it may begin to
the set of places at which it may then end. A place is a gap between two
characters, or one of the two ends of the text; a set of places is a number
whose bit `i` stands for the gap before character `i`.
-/
namespace AmstradCpc.Text

/-! ## Characters -/

inductive CharSet where
  | none
  /-- All characters from the first to the last. -/
  | range (first last : Char)
  | union (a b : CharSet)
  | inter (a b : CharSet)
  | diff (a b : CharSet)
  | symmDiff (a b : CharSet)
  | compl (a : CharSet)
  /-- Also the characters that differ from one of the set only in being a
  capital letter from A to Z, or a small one. -/
  | eitherCase (a : CharSet)
  deriving DecidableEq, Repr, Inhabited

namespace CharSet

def has : CharSet → Char → Bool
  | .none, _ => false
  | .range first last, c => first ≤ c && c ≤ last
  | .union a b, c => a.has c || b.has c
  | .inter a b, c => a.has c && b.has c
  | .diff a b, c => a.has c && !b.has c
  | .symmDiff a b, c => a.has c != b.has c
  | .compl a, c => !a.has c
  | .eitherCase a, c => a.has c || a.has c.toUpper || a.has c.toLower

def single (c : Char) : CharSet := .range c c

def ofRanges (ranges : List (Char × Char)) : CharSet :=
  ranges.foldr (fun (first, last) set => .union (.range first last) set) .none

/-- Of the characters below 256, which one byte can stand for, only those of
ASCII are in the set. -/
def isAscii (set : CharSet) : Bool := (List.range 0x80).all fun n => !set.has (Char.ofNat (0x80 + n))

end CharSet

/-! ## Places -/

/-- What a pattern may ask of a place. -/
inductive Place where
  | textStart
  | textEnd
  | lineStart
  | lineEnd
  /-- Lines may also end with a carriage return, or with both. -/
  | anyLineStart
  | anyLineEnd
  /-- A word begins or ends here. -/
  | wordEdge
  | noWordEdge
  | wordStart
  | wordEnd
  /-- No word character stands before. -/
  | wordStartHalf
  /-- No word character follows. -/
  | wordEndHalf
  deriving DecidableEq, Repr, Inhabited

/-- Words have to be known for it. -/
def Place.asksForWords : Place → Bool
  | .textStart | .textEnd | .lineStart | .lineEnd | .anyLineStart | .anyLineEnd => false
  | .wordEdge | .noWordEdge | .wordStart | .wordEnd | .wordStartHalf | .wordEndHalf => true

/-- The characters that words are made of. -/
def isWordChar (c : Char) : Bool := c.isAlphanum || c == '_'

/-- Whether the place between two characters is as asked. At an end of the text
there is none. -/
def Place.holds (p : Place) (before after : Option Char) : Bool :=
  let wordBefore := before.any isWordChar
  let wordAfter := after.any isWordChar
  match p with
  | .textStart => before.isNone
  | .textEnd => after.isNone
  | .lineStart => before.isNone || before == some '\n'
  | .lineEnd => after.isNone || after == some '\n'
  | .anyLineStart => before.isNone || before == some '\n' || (before == some '\r' && after != some '\n')
  | .anyLineEnd => after.isNone || after == some '\r' || (after == some '\n' && before != some '\r')
  | .wordEdge => wordBefore != wordAfter
  | .noWordEdge => wordBefore == wordAfter
  | .wordStart => !wordBefore && wordAfter
  | .wordEnd => wordBefore && !wordAfter
  | .wordStartHalf => !wordBefore
  | .wordEndHalf => !wordAfter

/-- The places of a text at which something holds of the characters before and
after. -/
def placesWhere (holds : Option Char → Option Char → Bool) : Option Char → List Char → Nat
  | before, [] => (holds before none).toNat
  | before, c :: rest => (holds before (some c)).toNat + 2 * placesWhere holds (some c) rest

/-- All places of a text. -/
def allPlaces (text : List Char) : Nat := placesWhere (fun _ _ => true) none text

/-! ## Patterns -/

inductive Regex where
  /-- Matches between any two characters. -/
  | empty
  | oneOf (set : CharSet)
  | place (p : Place)
  | seq (a b : Regex)
  | alt (a b : Regex)
  /-- At least so many times, and at most as often as is said, if it is. -/
  | times (r : Regex) (least : Nat) (most : Option Nat)
  deriving DecidableEq, Repr, Inhabited

namespace Regex

/-- The places at which a match may end that begins at one of `starts`. As soon
as a repetition has gone round once more often than the text has characters,
going round again leads nowhere new. -/
def ends (text : List Char) : Regex → Nat → Nat
  | .empty, starts => starts
  | .oneOf set, starts => (starts &&& placesWhere (fun _ after => after.any set.has) none text) <<< 1
  | .place p, starts => starts &&& placesWhere p.holds none text
  | .seq a b, starts => b.ends text (a.ends text starts)
  | .alt a b, starts => a.ends text starts ||| b.ends text starts
  | .times r least most, starts =>
    let rounds := text.length + 1
    let first := (min least rounds).repeat (fun s => r.ends text s) starts
    let more := match most with
      | some most => min (most - least) rounds
      | none => rounds
    more.repeat (fun s => s ||| r.ends text s) first

/-- A stretch of the text matches. -/
def found (r : Regex) (text : List Char) : Bool := r.ends text (allPlaces text) != 0

end Regex

end AmstradCpc.Text
