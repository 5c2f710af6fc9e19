import SiteCompiler.Decimal.Rounding
set_option autoImplicit false

/-! # Numbers with 53 binary digits

A decimal number is read as the nearest number `significand * 2 ^ exponent` whose significand has
at most 53 binary digits, and such a number is written with the fewest decimal digits that are read
as the same number again, the nearest of them if there are several. All arithmetic is exact.
-/

namespace SiteCompiler.Decimal

/-- A binary floating-point number of 64 bits. -/
inductive Binary64 where
  | finite (negative : Bool) (significand : Nat) (exponent : Int)
  | infinite (negative : Bool)
  | notANumber
  deriving DecidableEq, Repr

namespace Binary64

/-- The exponent of the smallest numbers. -/
def leastExponent : Int := -1074

/-- The exponent of the largest numbers. -/
def greatestExponent : Int := 971

/-- A quotient scaled by a power of two, as a quotient. -/
def scale (num den : Nat) (exponent : Int) : Nat × Nat :=
  if 0 ≤ exponent then (num * Nat.pow 2 exponent.toNat, den)
  else (num, den * Nat.pow 2 (-exponent).toNat)

/-- The exponent that gives the significand of `num / den` 53 binary digits, or the least one. -/
def exponentOf (num den : Nat) : Int :=
  let estimate : Int := (num.log2 : Int) - den.log2 - (significandBits - 1)
  let (n, d) := scale num den (-estimate)
  let exact := if n < d * Nat.pow 2 (significandBits - 1) then estimate - 1 else estimate
  max exact leastExponent

/-- The number nearest to a positive quotient. -/
def ofQuotient (negative : Bool) (num den : Nat) : Binary64 :=
  let exponent := exponentOf num den
  let (n, d) := scale num den (-exponent)
  let significand := roundQuotient n d
  -- Rounding up may add a binary digit.
  let (significand, exponent) :=
    if significand = Nat.pow 2 significandBits then (significand / 2, exponent + 1)
    else (significand, exponent)
  if greatestExponent < exponent then .infinite negative
  else .finite negative significand exponent

/-- The number of decimal digits before the point beyond which every number is infinite. -/
def digitLimit : Int := 310

/-- The number of zeros behind the point beyond which every number is zero. -/
def zeroLimit : Int := 330

/-- The number nearest to `digits * 10 ^ exponent`. -/
def ofDecimal (negative : Bool) (digits : Nat) (exponent : Int) : Binary64 :=
  let places : Int := (toString digits).length + exponent
  if digits = 0 || places < -zeroLimit then .finite negative 0 leastExponent
  else if digitLimit < places then .infinite negative
  else if 0 ≤ exponent then ofQuotient negative (digits * Nat.pow 10 exponent.toNat) 1
  else ofQuotient negative digits (Nat.pow 10 (-exponent).toNat)

/-! ## The shortest digits -/

/-- The numbers that are read as `significand * 2 ^ exponent`, in quarters of its last place: the
lower end, the number itself and the upper end. The ends are among them if the significand is
even. -/
def interval (significand : Nat) (exponent : Int) : Nat × Nat × Nat :=
  let isLeast := significand = Nat.pow 2 (significandBits - 1)
  let below := if isLeast ∧ leastExponent < exponent then 1 else 2
  (4 * significand - below, 4 * significand, 4 * significand + 2)

/-- The multiple of `10 ^ grid` that is read as the number and is nearest to it, if there is one,
divided by `10 ^ grid`. -/
def onGrid? (significand : Nat) (exponent : Int) (grid : Int) : Option Nat :=
  let (low, value, high) := interval significand exponent
  let (unit, whole) := scale 1 1 (exponent - 2)
  let (unit, whole) :=
    if 0 ≤ grid then (unit, whole * Nat.pow 10 grid.toNat)
    else (unit * Nat.pow 10 (-grid).toNat, whole)
  let inside := fun n : Nat =>
    if significand % 2 = 0 then low * unit ≤ n * whole ∧ n * whole ≤ high * unit
    else low * unit < n * whole ∧ n * whole < high * unit
  let floor := value * unit / whole
  let hasFloor : Bool := 0 < floor && inside floor
  let hasNext : Bool := inside (floor + 1)
  if hasFloor && hasNext then
    some (if value * unit - floor * whole < (floor + 1) * whole - value * unit then floor
      else floor + 1)
  else if hasFloor then some floor
  else if hasNext then some (floor + 1)
  else none

/-- The powers of ten that the last digit can have, the greatest first. -/
def grids : List Int := (List.range 660).map fun (n : Nat) => 310 - (n : Int)

/-- The fewest digits that are read as the number, and the power of ten of the last one. -/
def shortest (significand : Nat) (exponent : Int) : Nat × Int :=
  if significand = 0 then (0, 0)
  else
    match grids.findSome? fun grid => (onGrid? significand exponent grid).map fun n => (n, grid) with
    | some found => found
    | none => (0, 0)

/-- Digits with the point where it belongs, and at least one digit on either side of it. -/
def positional (digits : Nat) (exponent : Int) : String :=
  let text := (toString digits).toList
  if 0 ≤ exponent then
    String.ofList (text ++ List.replicate exponent.toNat '0') ++ ".0"
  else
    let places := (-exponent).toNat
    let padded := List.replicate (places + 1 - text.length) '0' ++ text
    String.ofList (padded.take (padded.length - places)) ++ "."
      ++ String.ofList (padded.drop (padded.length - places))

/-- The text of a number, always with a point if it is finite. -/
def text : Binary64 → String
  | finite negative significand exponent =>
      let (digits, grid) := shortest significand exponent
      (if negative then "-" else "") ++ positional digits grid
  | infinite negative => if negative then "-inf" else "inf"
  | notANumber => "NaN"

end Binary64

end SiteCompiler.Decimal
