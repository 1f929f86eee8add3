/-
Whole numbers as people type them: digits of one base, perhaps with a plus sign
in front, and nothing else.
-/
namespace AmstradCpc.Text

/-- What a digit of base `base` stands for; the base is at most sixteen. -/
def digitValue? (base : Nat) (c : Char) : Option Nat :=
  let value :=
    if c.isDigit then c.toNat - 48
    else if 'a' ≤ c ∧ c ≤ 'f' then c.toNat - 87
    else if 'A' ≤ c ∧ c ≤ 'F' then c.toNat - 55
    else base
  if value < base then some value else none

/-- The value of a list of digits, the highest first. -/
def digitsValue? (base : Nat) (digits : List Char) : Option Nat :=
  digits.foldlM (fun total c => (digitValue? base c).map (total * base + ·)) 0

/-- The characters after a plus sign, if there is one. -/
def withoutPlus : List Char → List Char
  | '+' :: rest => rest
  | digits => digits

/-- A number below `limit`. -/
def number? (base limit : Nat) (text : String) : Option Nat :=
  if (withoutPlus text.toList).isEmpty then none
  else (digitsValue? base (withoutPlus text.toList)).filter (· < limit)

end AmstradCpc.Text
