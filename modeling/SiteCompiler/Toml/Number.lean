import SiteCompiler.Text.Digit
import SiteCompiler.Toml.Value
set_option autoImplicit false

/-! # Numbers

Integers are decimal, with or without a sign, or hexadecimal, octal or binary. A float has a
fraction, an exponent or both. Between two digits there may be an underscore. A decimal number has
no zero in front, integers fit into 64 bits, and a float may not be too large.
-/

namespace SiteCompiler.Toml

/-- The digits of a base. -/
def isDigitOf (base : Nat) (c : Char) : Bool :=
  match Text.hexDigit? c with
  | some n => n < base
  | none => false

/-- The run of digits that begins here, without its underscores. -/
def digits? (base : Nat) (cs : List Char) : Option (List Char × List Char) :=
  let belongs := fun c => isDigitOf base c || c == '_'
  let groups := (cs.takeWhile belongs).splitOn '_'
  if groups.all (fun group => !group.isEmpty) then some (groups.flatten, cs.dropWhile belongs)
  else none

/-- The sign that stands here, true for minus. -/
def sign : List Char → Bool × List Char
  | '-' :: rest => (true, rest)
  | '+' :: rest => (false, rest)
  | cs => (false, cs)

/-- The least number that is too large for an integer. -/
def integerBound : Nat := 9223372036854775808

/-- The integer with these digits, if it fits into 64 bits. -/
def integer? (negative : Bool) (base : Nat) (digits : List Char) : Option Value :=
  let n := Text.digitsValue base digits
  if negative then if n ≤ integerBound then some (.integer (-(n : Int))) else none
  else if n < integerBound then some (.integer n) else none

/-- The integer with a base that begins behind `0x`, `0o` or `0b`. -/
def based? (base : Nat) (cs : List Char) : Option (Value × List Char) :=
  match digits? base cs with
  | some (digits, rest) => (integer? false base digits).map fun value => (value, rest)
  | none => none

/-- The fraction that begins here: its digits; none if there is no point. -/
def fraction? : List Char → Option (List Char × List Char)
  | '.' :: rest => digits? 10 rest
  | cs => some ([], cs)

/-- The exponent that begins here; zero if there is none. -/
def exponent? : List Char → Option (Int × List Char)
  | [] => some (0, [])
  | c :: rest =>
      if c == 'e' || c == 'E' then
        let (negative, unsigned) := sign rest
        (digits? 10 unsigned).map fun read =>
          let n : Int := Text.digitsValue 10 read.1
          (if negative then -n else n, read.2)
      else some (0, c :: rest)

/-- A float that can be kept: not one that is too large. -/
def float? (x : Decimal.Binary64) : Option Value :=
  if x = .infinite false then none else some (.float x)

/-- The decimal number that begins here, behind its sign. -/
def decimal? (negative : Bool) (cs : List Char) : Option (Value × List Char) := do
  let (whole, afterWhole) ← digits? 10 cs
  if whole.head? = some '0' && 1 < whole.length then none
  else
    let (fraction, afterFraction) ← fraction? afterWhole
    let (exponent, rest) ← exponent? afterFraction
    -- Neither a fraction nor an exponent was read.
    if rest.length = afterWhole.length then
      (integer? negative 10 whole).map fun value => (value, rest)
    else
      (float? (.ofDecimal negative (Text.digitsValue 10 (whole ++ fraction))
        (exponent - fraction.length))).map fun value => (value, rest)

/-- The number that begins here. -/
def number? (cs : List Char) : Option (Value × List Char) :=
  match cs with
  | '0' :: 'x' :: rest => based? 16 rest
  | '0' :: 'o' :: rest => based? 8 rest
  | '0' :: 'b' :: rest => based? 2 rest
  | _ =>
      let (negative, unsigned) := sign cs
      match unsigned with
      | 'i' :: 'n' :: 'f' :: rest => some (.float (.infinite negative), rest)
      | 'n' :: 'a' :: 'n' :: rest => some (.float .notANumber, rest)
      | _ => decimal? negative unsigned

end SiteCompiler.Toml
