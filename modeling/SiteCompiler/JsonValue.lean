import SiteCompiler.Text.Digit
set_option autoImplicit false

/-! # JSON values and their text

A value is written over several lines, each level two blanks further in; a list without elements
and a record without fields are written on one line. In a string, quotes, backslashes and control
characters are escaped and everything else stands as it is.
-/

namespace SiteCompiler

/-- A JSON value; numbers are natural numbers. -/
inductive JsonValue where
  | null
  | number (n : Nat)
  | text (s : String)
  | list (elements : List JsonValue)
  | record (fields : List (String × JsonValue))

namespace JsonValue

/-- A character as it is written in a string. -/
def escapeChar (c : Char) : List Char :=
  match c with
  | '"' => ['\\', '"']
  | '\\' => ['\\', '\\']
  | '\x08' => ['\\', 'b']
  | '\x0c' => ['\\', 'f']
  | '\n' => ['\\', 'n']
  | '\r' => ['\\', 'r']
  | '\t' => ['\\', 't']
  | c =>
      if c.toNat < 0x20 then
        ['\\', 'u', '0', '0', Text.hexDigit (c.toNat / 16), Text.hexDigit (c.toNat % 16)]
      else [c]

/-- A string with its quotes. -/
def quoted (s : String) : String := "\"" ++ String.ofList (s.toList.flatMap escapeChar) ++ "\""

/-- The blanks in front of a line. -/
def margin (depth : Nat) : String := String.ofList (List.replicate (2 * depth) ' ')

/-- What stands between brackets, each part on a line of its own. -/
def enclosed (opening closing : String) (depth : Nat) (parts : List String) : String :=
  if parts.isEmpty then opening ++ closing
  else
    opening ++ "\n" ++ String.intercalate ",\n" (parts.map (margin (depth + 1) ++ ·)) ++ "\n"
      ++ margin depth ++ closing

mutual

/-- The text of a value whose brackets stand `depth` levels in. -/
def render (depth : Nat) : JsonValue → String
  | null => "null"
  | number n => toString n
  | text s => quoted s
  | list elements => enclosed "[" "]" depth (renderAll (depth + 1) elements)
  | record fields => enclosed "\x7b" "\x7d" depth (renderFields (depth + 1) fields)

/-- The texts of the elements of a list. -/
def renderAll (depth : Nat) : List JsonValue → List String
  | [] => []
  | element :: rest => element.render depth :: renderAll depth rest

/-- The texts of the fields of a record. -/
def renderFields (depth : Nat) : List (String × JsonValue) → List String
  | [] => []
  | (name, value) :: rest => (quoted name ++ ": " ++ value.render depth) :: renderFields depth rest

end

/-- The text of a value. -/
def pretty (value : JsonValue) : String := value.render 0

end JsonValue

end SiteCompiler
