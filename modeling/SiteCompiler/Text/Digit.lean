set_option autoImplicit false

/-! # Digits

Digits of bases up to sixteen, letters in either case.
-/

namespace SiteCompiler.Text

/-- The value of a hexadecimal digit. -/
def hexDigit? (c : Char) : Option Nat :=
  if c.isDigit then some (c.toNat - '0'.toNat)
  else if 'a' ≤ c && c ≤ 'f' then some (c.toNat - 'a'.toNat + 10)
  else if 'A' ≤ c && c ≤ 'F' then some (c.toNat - 'A'.toNat + 10)
  else none

/-- The value of a run of digits; other characters count as zeros. -/
def digitsValue (base : Nat) (cs : List Char) : Nat :=
  cs.foldl (fun n c => base * n + (hexDigit? c).getD 0) 0

/-- The hexadecimal digits, in lower case. -/
def hexDigits : List Char := "0123456789abcdef".toList

/-- The hexadecimal digit of a value below sixteen. -/
def hexDigit (n : Nat) : Char := hexDigits.getD n '0'

/-- A number in hexadecimal digits. -/
def hexText (n : Nat) : List Char := Nat.toDigits 16 n

end SiteCompiler.Text
