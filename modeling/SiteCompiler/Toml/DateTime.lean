import SiteCompiler.Text.Digit
set_option autoImplicit false

/-! # Dates and times

`2000-02-29`, `12:30:00.5`, both joined by `T` or a space, and the latter with an offset from the
standard time. A date has to be one of the calendar.
-/

namespace SiteCompiler.Toml.DateTime

/-- The number that exactly `count` digits here stand for, if it is between two bounds. -/
def field? (count least greatest : Nat) (cs : List Char) : Option (Nat × List Char) :=
  let digits := cs.take count
  let n := Text.digitsValue 10 digits
  if digits.length = count && digits.all Char.isDigit && least ≤ n && n ≤ greatest then
    some (n, cs.drop count)
  else none

/-- What follows a character that has to stand here. -/
def expect? (c : Char) : List Char → Option (List Char)
  | d :: rest => if d = c then some rest else none
  | [] => none

/-- Whether `count` digits and then `c` stand here. -/
def begins (count : Nat) (c : Char) (cs : List Char) : Bool :=
  (cs.take count).length = count && (cs.take count).all Char.isDigit
    && (cs.drop count).head? == some c

/-- Whether a date begins here. -/
def beginsDate (cs : List Char) : Bool := begins 4 '-' cs

/-- Whether a time begins here. -/
def beginsTime (cs : List Char) : Bool := begins 2 ':' cs

/-- Whether a year has a leap day. -/
def isLeapYear (year : Nat) : Bool := year % 4 == 0 && (year % 100 != 0 || year % 400 == 0)

/-- The number of days in a month. -/
def daysIn (year month : Nat) : Nat :=
  if month = 2 then if isLeapYear year then 29 else 28
  else if month = 4 ∨ month = 6 ∨ month = 9 ∨ month = 11 then 30
  else 31

/-- What follows the date that begins here. -/
def date? (cs : List Char) : Option (List Char) := do
  let (year, cs) ← field? 4 0 9999 cs
  let (month, cs) ← field? 2 1 12 (← expect? '-' cs)
  let (_, cs) ← field? 2 1 (daysIn year month) (← expect? '-' cs)
  some cs

/-- What follows a fraction of a second, if one stands here. -/
def skipFraction : List Char → List Char
  | '.' :: c :: rest => if c.isDigit then rest.dropWhile Char.isDigit else '.' :: c :: rest
  | cs => cs

/-- What follows the time that begins here. A minute can have a leap second. -/
def time? (cs : List Char) : Option (List Char) := do
  let (_, cs) ← field? 2 0 23 cs
  let (_, cs) ← field? 2 0 59 (← expect? ':' cs)
  let (_, cs) ← field? 2 0 60 (← expect? ':' cs)
  some (skipFraction cs)

/-- What follows the offset, if one begins here. -/
def offset? : List Char → Option (List Char)
  | [] => some []
  | c :: rest =>
      if c == 'Z' || c == 'z' then some rest
      else if c == '+' || c == '-' then do
        let (_, rest) ← field? 2 0 23 rest
        let (_, rest) ← field? 2 0 59 (← expect? ':' rest)
        some rest
      else some (c :: rest)

/-- Whether a character can stand between a date and a time. -/
def joins (c : Char) : Bool := c == 'T' || c == 't' || c == ' '

/-- What follows the date, the time or both that begin here. -/
def read? (cs : List Char) : Option (List Char) :=
  if beginsTime cs then time? cs
  else do
    let rest ← date? cs
    match rest with
    -- A space behind a date can also be an ordinary blank.
    | c :: after => if joins c && beginsTime after then offset? (← time? after) else some rest
    | [] => some []

end SiteCompiler.Toml.DateTime
