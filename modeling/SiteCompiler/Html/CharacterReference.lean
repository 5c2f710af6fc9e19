import Std.Data.HashMap
import SiteCompiler.Html.CharacterReference.Table
import SiteCompiler.Text.Digit
set_option autoImplicit false

/-! # Character references

`&name;`, `&#10;` and `&#x0a;` stand for characters, in text and in attribute values. Of the names
in the table the longest one that follows the `&` counts. In an attribute value a name without its
`;` counts only if neither a letter or digit nor a `=` follows, so that `?a=1&copy=2` stays as it
is. An `&` that begins no reference is an ordinary character.
-/

namespace SiteCompiler.Html.CharacterReference

open Text

/-- One entry of the table: a name and its characters. -/
def entry? (entry : List Char) : Option (String × List Char) :=
  match entry.splitOn '=' with
  | [name, codes] =>
      some (String.ofList name, (codes.splitOn '+').map fun code => Char.ofNat (digitsValue 16 code))
  | _ => none

/-- The table. -/
def table : Std.HashMap String (List Char) :=
  Std.HashMap.ofList
    (tableLines.flatMap fun line => (line.toList.splitOn ' ').filterMap entry?)

/-- The length of the longest name in the table. -/
def longestName : Nat := 32

/-- The longest of the beginnings of `cs`, at most `length` characters, that is a name: its
characters, the name and what follows it. -/
def longestMatch? (cs : List Char) : Nat → Option (List Char × List Char × List Char)
  | 0 => none
  | length + 1 =>
      let name := cs.take (length + 1)
      match table[String.ofList name]? with
      | some chars => some (chars, name, cs.drop (length + 1))
      | none => longestMatch? cs length

/-- What follows a `;`, if the text begins with one. -/
def afterSemicolon : List Char → List Char
  | ';' :: cs => cs
  | cs => cs

/-- The characters for the code points 80 to 9F, which are read as in Windows-1252. -/
def c1Replacements : List Nat :=
  [0x20AC, 0x81, 0x201A, 0x192, 0x201E, 0x2026, 0x2020, 0x2021, 0x2C6, 0x2030, 0x160, 0x2039,
    0x152, 0x8D, 0x17D, 0x8F, 0x90, 0x2018, 0x2019, 0x201C, 0x201D, 0x2022, 0x2013, 0x2014,
    0x2DC, 0x2122, 0x161, 0x203A, 0x153, 0x9D, 0x17E, 0x178]

/-- The character that stands for what is no character. -/
def replacementChar : Char := '\uFFFD'

/-- The character that a numeric reference stands for. -/
def charOfCode (n : Nat) : Char :=
  if n = 0 ∨ 0x10FFFF < n ∨ (0xD800 ≤ n ∧ n ≤ 0xDFFF) then replacementChar
  else if 0x80 ≤ n ∧ n ≤ 0x9F then Char.ofNat (c1Replacements[n - 0x80]?.getD n)
  else Char.ofNat n

/-- A numeric reference, read after its `&#`. -/
def numeric? : List Char → Option (List Char × List Char)
  | [] => none
  | c :: cs =>
      let isHex := c == 'x' || c == 'X'
      let digits := if isHex then cs else c :: cs
      let isDigit := fun d : Char => if isHex then (hexDigit? d).isSome else d.isDigit
      match digits.takeWhile isDigit with
      | [] => none
      | number =>
          some ([charOfCode (digitsValue (if isHex then 16 else 10) number)],
            afterSemicolon (digits.dropWhile isDigit))

/-- A named reference, read after its `&`. -/
def named? (inAttribute : Bool) (cs : List Char) : Option (List Char × List Char) :=
  match longestMatch? cs longestName with
  | none => none
  | some (chars, name, rest) =>
      if inAttribute && name.getLast? != some ';'
          && rest.head?.any (fun c => c == '=' || c.isAlphanum) then none
      else some (chars, rest)

/-- The reference that begins with an `&`, read after it: its characters, and what follows. -/
def read? (inAttribute : Bool) : List Char → Option (List Char × List Char)
  | '#' :: cs => numeric? cs
  | cs => named? inAttribute cs

/-- Replaces the references in an attribute value. -/
def decodeWithin : Nat → List Char → List Char
  | 0, cs => cs
  | _ + 1, [] => []
  | steps + 1, '&' :: cs =>
      match read? true cs with
      | some (chars, rest) => chars ++ decodeWithin steps rest
      | none => '&' :: decodeWithin steps cs
  | steps + 1, c :: cs => c :: decodeWithin steps cs

/-- An attribute value with its references replaced. -/
def decode (value : List Char) : List Char := decodeWithin value.length value

end SiteCompiler.Html.CharacterReference
