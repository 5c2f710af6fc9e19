import SiteCompiler.Toml.DateTime
import SiteCompiler.Toml.Document
import SiteCompiler.Toml.Number
import SiteCompiler.Toml.Text
set_option autoImplicit false

/-! # Reading TOML

A document is read line by line and then put together. Arrays may run over several lines and end
with a comma, inline tables may do neither. Every loop reads at least one character per turn, which
is checked where it goes on.
-/

namespace SiteCompiler.Toml

/-- The boolean that begins here. -/
def boolean? : List Char → Option (Bool × List Char)
  | 't' :: 'r' :: 'u' :: 'e' :: rest => some (true, rest)
  | 'f' :: 'a' :: 'l' :: 's' :: 'e' :: rest => some (false, rest)
  | _ => none

/-- The elements of an array up to its closing bracket, and what follows it. -/
def elements? {α : Type} (item? : List Char → Option (α × List Char)) (cs : List Char) :
    Option (List α × List Char) :=
  match skipLines cs with
  | ']' :: rest => some ([], rest)
  | here =>
      match item? here with
      | none => none
      | some (x, rest) =>
          match skipLines rest with
          | ']' :: after => some ([x], after)
          | ',' :: after =>
              if after.length < cs.length then
                (elements? item? after).map fun read => (x :: read.1, read.2)
              else none
          | _ => none
termination_by cs.length

/-- The fields of an inline table up to its closing brace, and what follows it. -/
def fields? {α : Type} (item? : List Char → Option (α × List Char)) (cs : List Char) :
    Option (List α × List Char) :=
  match item? cs with
  | none => none
  | some (x, rest) =>
      match skipBlanks rest with
      | '\x7d' :: after => some ([x], after)
      | ',' :: after =>
          if after.length < cs.length then
            (fields? item? after).map fun read => (x :: read.1, read.2)
          else none
      | _ => none
termination_by cs.length

/-- The assignment that begins here. -/
def assignment? (value? : List Char → Option (Value × List Char)) (cs : List Char) :
    Option (((List String × String) × Value) × List Char) := do
  let (key, rest) ← key? cs
  match rest with
  | '=' :: rest =>
      let (v, rest) ← value? (skipBlanks rest)
      some ((key, v), rest)
  | _ => none

/-- The inline table behind its opening brace. -/
def inlineTable? (value? : List Char → Option (Value × List Char)) (cs : List Char) :
    Option (Value × List Char) :=
  match skipBlanks cs with
  | '\x7d' :: rest => some (.table [], rest)
  | _ => do
      let (assignments, rest) ← fields? (assignment? value?) cs
      let fields ← Fields.assignAll? [] assignments
      some (.table (fieldValues fields), rest)

/-- The value that begins here and has at most `levels` arrays and inline tables around each
other. -/
def value? (levels : Nat) (cs : List Char) : Option (Value × List Char) :=
  match cs with
  | '[' :: rest =>
      match levels with
      | 0 => none
      | levels + 1 => (elements? (value? levels) rest).map fun read => (.array read.1, read.2)
  | '\x7b' :: rest =>
      match levels with
      | 0 => none
      | levels + 1 => inlineTable? (value? levels) rest
  | c :: _ =>
      if c == '"' || c == '\'' then
        (string? cs).map fun read => (.string (String.ofList read.1), read.2)
      else if c == 't' || c == 'f' then
        (boolean? cs).map fun read => (.boolean read.1, read.2)
      else if DateTime.beginsDate cs || DateTime.beginsTime cs then
        (DateTime.read? cs).map fun rest => (.dateTime, rest)
      else number? cs
  | [] => none
termination_by structural levels

/-- The line that begins here, and what follows what it says. -/
def line? (cs : List Char) : Option (Line × List Char) :=
  match cs with
  | '[' :: '[' :: rest =>
      match key? rest with
      | some ((path, key), ']' :: ']' :: after) => some (.elementHeader path key, after)
      | _ => none
  | '[' :: rest =>
      match key? rest with
      | some ((path, key), ']' :: after) => some (.tableHeader path key, after)
      | _ => none
  | _ =>
      (assignment? (value? depthLimit) cs).map fun read =>
        (.assignment read.1.1.1 read.1.1.2 read.1.2, read.2)

/-- The lines of a text. -/
def lines? (cs : List Char) : Option (List Line) :=
  match skipLines cs with
  | [] => some []
  | here =>
      match line? here with
      | none => none
      | some (line, rest) =>
          match lineEnd? (skipComment (skipBlanks rest)) with
          | none => none
          | some after =>
              if after.length < cs.length then (lines? after).map (line :: ·) else none
termination_by cs.length

/-- What follows the mark of the byte order, if the text begins with it. -/
def skipByteOrderMark : List Char → List Char
  | '\ufeff' :: rest => rest
  | cs => cs

/-- The fields of the document that a text holds. -/
def read? (text : String) : Option (List (String × Value)) := do
  documentOf? (← lines? (skipByteOrderMark text.toList))

end SiteCompiler.Toml
