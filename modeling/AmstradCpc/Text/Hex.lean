/-
Numbers written in base sixteen, padded with zeros to a least width. Wider
numbers are written in full: padding never cuts digits off.
-/
namespace AmstradCpc.Text

/-- The digit for a value below sixteen. -/
def hexDigit (upper : Bool) (n : Nat) : Char :=
  if n < 10 then Char.ofNat (48 + n) else Char.ofNat ((if upper then 55 else 87) + n)

/-- The digits of `n`, highest first; zero has one digit. -/
def hexDigits (upper : Bool) (n : Nat) : List Char :=
  if n < 16 then [hexDigit upper n] else hexDigits upper (n / 16) ++ [hexDigit upper (n % 16)]

/-- `n` in base sixteen with at least `width` digits. -/
def hexPadded (upper : Bool) (width n : Nat) : String :=
  let digits := hexDigits upper n
  String.ofList (List.replicate (width - digits.length) '0' ++ digits)

/-- Lower-case digits, zeros in front up to `width`. -/
def hexLower (width n : Nat) : String := hexPadded false width n

/-- Upper-case digits, zeros in front up to `width`. -/
def hexUpper (width n : Nat) : String := hexPadded true width n

end AmstradCpc.Text
