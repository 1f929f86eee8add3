/-
What may be wrong with a written pattern, by cause and place, and how that is
put into words: the pattern is shown again, with marks below what is meant.
-/
import AmstradCpc.Text.Split

namespace AmstradCpc.Text.Regex

/-- A stretch of a written pattern, by its first place and the one behind it. -/
structure Span where
  start : Nat
  stop : Nat
  deriving DecidableEq, Repr, Inhabited

inductive Cause where
  -- Sets of characters.
  | setUnclosed
  | rangeOrder
  /-- An end of a range stands for more than one character. -/
  | rangeEnd
  /-- Something in a set does not stand for characters. -/
  | setEscape
  -- Groups and flags.
  | groupUnclosed
  | groupUnopened
  | nameUnclosed
  | nameEmpty
  | nameCharacter
  | nameTwice
  | flagUnknown
  | flagTwice
  | flagMissing
  | negationTwice
  | negationDangling
  | lookAround
  -- Repetitions.
  | nothingRepeated
  | countUnclosed
  | countMissing
  | countOrder
  | countTooLarge
  -- Escapes.
  | escapeUnfinished
  | escapeUnknown
  | hexEmpty
  | hexDigit
  /-- The number is not that of a character. -/
  | hexCharacter
  | backreference
  | propertyLetter
  | edgeUnfinished
  | edgeUnclosed
  | edgeUnknown
  -- What is well written, and cannot be had.
  /-- The digits, blanks or letters of all scripts. -/
  | allScripts
  /-- Capital and small letters of all scripts taken for the same. -/
  | allScriptsCase
  | property
  | propertyValue
  /-- More than ASCII characters where only those may be. -/
  | onlyAscii
  /-- Single bytes that are no characters. -/
  | strayBytes
  deriving DecidableEq, Repr, Inhabited

def Cause.message : Cause → String
  | .setUnclosed => "unclosed character class"
  | .rangeOrder => "invalid character class range, the start must be <= the end"
  | .rangeEnd => "invalid range boundary, must be a literal"
  | .setEscape => "invalid escape sequence found in character class"
  | .groupUnclosed => "unclosed group"
  | .groupUnopened => "unopened group"
  | .nameUnclosed => "unclosed capture group name"
  | .nameEmpty => "empty capture group name"
  | .nameCharacter => "invalid capture group character"
  | .nameTwice => "duplicate capture group name"
  | .flagUnknown => "unrecognized flag"
  | .flagTwice => "duplicate flag"
  | .flagMissing => "expected flag but got end of regex"
  | .negationTwice => "flag negation operator repeated"
  | .negationDangling => "dangling flag negation operator"
  | .lookAround => "look-around, including look-ahead and look-behind, is not supported"
  | .nothingRepeated => "repetition operator missing expression"
  | .countUnclosed => "unclosed counted repetition"
  | .countMissing => "repetition quantifier expects a valid decimal"
  | .countOrder => "invalid repetition count range, the start must be <= the end"
  | .countTooLarge => "decimal literal invalid"
  | .escapeUnfinished => "incomplete escape sequence, reached end of pattern prematurely"
  | .escapeUnknown => "unrecognized escape sequence"
  | .hexEmpty => "hexadecimal literal empty"
  | .hexDigit => "invalid hexadecimal digit"
  | .hexCharacter => "hexadecimal literal is not a Unicode scalar value"
  | .backreference => "backreferences are not supported"
  | .propertyLetter => "invalid Unicode character class"
  | .edgeUnfinished => "found either the beginning of a special word boundary or a bounded repetition on a \\b "
    ++ "with an opening brace, but no closing brace"
  | .edgeUnclosed => "special word boundary assertion is either unclosed or contains an invalid character"
  | .edgeUnknown => "unrecognized special word boundary assertion, valid choices are: start, end, start-half "
    ++ "or end-half"
  | .allScripts => "Unicode-aware Perl class not found (make sure the unicode-perl feature is enabled)"
  | .allScriptsCase => "Unicode-aware case insensitivity matching is not available "
    ++ "(make sure the unicode-case feature is enabled)"
  | .property => "Unicode property not found"
  | .propertyValue => "Unicode property value not found"
  | .onlyAscii => "Unicode not allowed here"
  | .strayBytes => "pattern can match invalid UTF-8"

inductive Flaw where
  /-- Something is wrong here, perhaps because of something before it. -/
  | written (cause : Cause) (span : Span) (earlier : Option Span)
  /-- Where words begin and end is asked for in all scripts; only that of ASCII
  words can be told. -/
  | wordsOfAllScripts
  deriving DecidableEq, Repr, Inhabited

/-! ## Showing the pattern -/

/-- The line that a place is on; the first is line 0. -/
def lineOf (pattern : List Char) (place : Nat) : Nat := (pattern.take place).count '\n'

/-- The characters of its line before a place. -/
def columnOf (pattern : List Char) (place : Nat) : Nat :=
  ((pattern.take place).reverse.takeWhile (· != '\n')).length

def Span.onOneLine (pattern : List Char) (s : Span) : Bool :=
  lineOf pattern s.start == lineOf pattern s.stop

/-- Marks below the stretches of a line; a stretch of no length has one too. -/
def marks (pattern : List Char) : Nat → List Span → List Char
  | _, [] => []
  | column, s :: rest =>
    let first := columnOf pattern s.start
    let width := max 1 (columnOf pattern s.stop - first)
    List.replicate (first - column) ' ' ++ List.replicate width '^' ++ marks pattern (first + width) rest

/-- The lines of a pattern. A line break at the end begins no other line. -/
def linesOf (pattern : List Char) : List (List Char) :=
  let lines := splitAt '\n' pattern
  if lines.getLast? == some [] then lines.dropLast else lines

/-- A line as it is shown, and the marks below it. -/
def shownLine (pattern : List Char) (numberWidth : Nat) (spans : List Span) (line : List Char) (i : Nat) :
    List String :=
  let number := toString (i + 1)
  let margin :=
    if numberWidth = 0 then "    "
    else String.ofList (List.replicate (numberWidth - number.length) ' ') ++ number ++ ": "
  let here := spans.filter fun s => s.onOneLine pattern && lineOf pattern s.start == i
  (margin ++ String.ofList line) ::
    if here.isEmpty then []
    else [String.ofList (List.replicate margin.length ' ' ++ marks pattern 0 here)]

/-- A stretch of more than one line, in words. -/
def longSpan (pattern : List Char) (s : Span) : String :=
  s!"on line {lineOf pattern s.start + 1} (column {columnOf pattern s.start + 1}) "
    ++ s!"through line {lineOf pattern s.stop + 1} (column {columnOf pattern s.stop})"

/-- What there is to say, line by line. A pattern of several lines is numbered
and stands between rules. -/
def report (pattern : List Char) (cause : Cause) (spans : List Span) : List String :=
  let lines := linesOf pattern
  let count := lines.length + if pattern.getLast? == some '\n' then 1 else 0
  let numberWidth := if count ≤ 1 then 0 else (toString count).length
  let shown := lines.zipIdx.flatMap fun (line, i) => shownLine pattern numberWidth spans line i
  let rule := if pattern.contains '\n' then [String.ofList (List.replicate 79 '~')] else []
  let long := if pattern.contains '\n' then spans.filter fun s => !s.onOneLine pattern else []
  ["regex parse error:"] ++ rule ++ shown ++ rule ++ long.map (longSpan pattern) ++ ["error: " ++ cause.message]

/-- What is wrong with a pattern. -/
def Flaw.message (pattern : List Char) : Flaw → String
  | .written cause span earlier => "\n".intercalate (report pattern cause (earlier.toList ++ [span]))
  | .wordsOfAllScripts => "error building NFA"

end AmstradCpc.Text.Regex
