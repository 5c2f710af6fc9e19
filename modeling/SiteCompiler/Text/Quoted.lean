import SiteCompiler.Text.Digit
import SiteCompiler.Text.Quoted.Table
set_option autoImplicit false

/-! # Quoted text in messages

A text in a message stands between quotes. Quotes, backslashes, line ends, tabs and the null
character are escaped by a backslash, and characters that a reader could not see or would see
joined to the one before are written by their number.
-/

namespace SiteCompiler.Text.Quoted

/-- One entry of the table: its first and its last code point. -/
def range (entry : List Char) : Nat × Nat :=
  match entry.splitOn '-' with
  | [first, last] => (digitsValue 16 first, digitsValue 16 last)
  | _ => (digitsValue 16 entry, digitsValue 16 entry)

/-- The ranges of the table. -/
def ranges : List (Nat × Nat) :=
  tableLines.flatMap fun line => (line.toList.splitOn ' ').map range

/-- Whether a character is written by its number. -/
def isNumbered (c : Char) : Bool :=
  let n := c.toNat
  n < 0x20 || n == 0x7F || (0x80 ≤ n && ranges.any fun r => r.1 ≤ n && n ≤ r.2)

/-- A character as it is written between quotes. -/
def escapeChar (c : Char) : List Char :=
  match c with
  | '\x00' => ['\\', '0']
  | '\t' => ['\\', 't']
  | '\r' => ['\\', 'r']
  | '\n' => ['\\', 'n']
  | '"' => ['\\', '"']
  | '\\' => ['\\', '\\']
  | c => if isNumbered c then ['\\', 'u', '\x7b'] ++ hexText c.toNat ++ ['\x7d'] else [c]

/-- A text with its quotes. -/
def encode (text : String) : String :=
  "\"" ++ String.ofList (text.toList.flatMap escapeChar) ++ "\""

end SiteCompiler.Text.Quoted
