import SiteCompiler.Text.Digit
import SiteCompiler.Toml.Spacing
set_option autoImplicit false

/-! # Strings and keys

A string is basic (in `"`, with escapes) or literal (in `'`, without), and in either kind on one
line or, with three quotes, on several. A key is a string on one line or a bare word; keys joined by
dots lead from a table to a table in it.
-/

namespace SiteCompiler.Toml

/-- The character of a code point, if it has one. -/
def scalar? (n : Nat) : Option Char :=
  if n < 0xD800 || (0xE000 ≤ n && n ≤ 0x10FFFF) then some (Char.ofNat n) else none

/-- The character that exactly `count` hexadecimal digits stand for. -/
def codePoint? (count : Nat) (cs : List Char) : Option Char :=
  let digits := cs.take count
  if digits.length = count && digits.all fun c => (Text.hexDigit? c).isSome then
    scalar? (Text.digitsValue 16 digits)
  else none

/-- The character that an escape stands for and the length of the escape, behind its backslash. -/
def escape? : List Char → Option (Char × Nat)
  | 'b' :: _ => some ('\x08', 1)
  | 't' :: _ => some ('\t', 1)
  | 'n' :: _ => some ('\n', 1)
  | 'f' :: _ => some ('\x0c', 1)
  | 'r' :: _ => some ('\r', 1)
  | '"' :: _ => some ('"', 1)
  | '\\' :: _ => some ('\\', 1)
  | 'u' :: rest => (codePoint? 4 rest).map fun c => (c, 5)
  | 'U' :: rest => (codePoint? 8 rest).map fun c => (c, 9)
  | _ => none

/-- Puts a character in front of a text that has been read. -/
def consText (c : Char) (read : List Char × List Char) : List Char × List Char :=
  (c :: read.1, read.2)

/-- The text of a basic string up to its closing quote, and what follows that quote. -/
def basicText (cs : List Char) : Option (List Char × List Char) :=
  match cs with
  | [] => none
  | '"' :: rest => some ([], rest)
  | '\\' :: rest =>
      match escape? rest with
      | some (c, length) => (basicText (rest.drop length)).map (consText c)
      | none => none
  | c :: rest => if isTextChar c then (basicText rest).map (consText c) else none
termination_by cs.length
decreasing_by all_goals (simp only [List.length_cons, List.length_drop]; omega)

/-- The text of a literal string up to its closing quote, and what follows that quote. -/
def literalText : List Char → Option (List Char × List Char)
  | [] => none
  | '\'' :: rest => some ([], rest)
  | c :: rest => if isTextChar c then (literalText rest).map (consText c) else none

/-- The quotes of a run behind the closing quotes, which belong to the text: two at most. -/
def trailingQuotes (quote : Char) : List Char → List Char × List Char
  | c :: d :: rest =>
      if c = quote then if d = quote then ([c, d], rest) else ([c], d :: rest)
      else ([], c :: d :: rest)
  | [c] => if c = quote then ([c], []) else ([], [c])
  | [] => ([], [])

/-- Whether a backslash here is the last visible character of its line. -/
def endsLine (cs : List Char) : Bool :=
  match skipBlanks cs with
  | '\n' :: _ => true
  | '\r' :: '\n' :: _ => true
  | _ => false

/-- How many blanks and line ends stand here. -/
def blankLength : List Char → Nat
  | '\r' :: '\n' :: rest => blankLength rest + 2
  | c :: rest => if isInlineBlank c || c == '\n' then blankLength rest + 1 else 0
  | [] => 0

/-- The text of a basic string on several lines up to its closing quotes, and what follows them.
A backslash at the end of a line joins the lines. -/
def longBasicText (cs : List Char) : Option (List Char × List Char) :=
  match cs with
  | [] => none
  | '"' :: '"' :: '"' :: rest => some (trailingQuotes '"' rest)
  | '\\' :: rest =>
      -- Blanks between the backslash and the line end are allowed.
      if endsLine rest then longBasicText (rest.drop (blankLength rest))
      else
        match escape? rest with
        | some (c, length) => (longBasicText (rest.drop length)).map (consText c)
        | none => none
  | '\r' :: '\n' :: rest => (longBasicText rest).map (consText '\n')
  | c :: rest =>
      if isTextChar c || c == '\n' then (longBasicText rest).map (consText c) else none
termination_by cs.length
decreasing_by all_goals (simp only [List.length_cons, List.length_drop]; omega)

/-- The text of a literal string on several lines up to its closing quotes, and what follows
them. -/
def longLiteralText : List Char → Option (List Char × List Char)
  | [] => none
  | '\'' :: '\'' :: '\'' :: rest => some (trailingQuotes '\'' rest)
  | '\r' :: '\n' :: rest => (longLiteralText rest).map (consText '\n')
  | c :: rest =>
      if isTextChar c || c == '\n' then (longLiteralText rest).map (consText c) else none

/-- What follows a line end right behind the opening quotes, which is not part of the text. -/
def skipFirstLineEnd : List Char → List Char
  | '\n' :: rest => rest
  | '\r' :: '\n' :: rest => rest
  | cs => cs

/-- The string that begins here. -/
def string? : List Char → Option (List Char × List Char)
  | '"' :: '"' :: '"' :: rest => longBasicText (skipFirstLineEnd rest)
  | '\'' :: '\'' :: '\'' :: rest => longLiteralText (skipFirstLineEnd rest)
  | '"' :: rest => basicText rest
  | '\'' :: rest => literalText rest
  | _ => none

/-- The characters of a bare key. -/
def isBareKeyChar (c : Char) : Bool := c.isAlphanum || c == '_' || c == '-'

/-- The key that begins here. -/
def simpleKey? : List Char → Option (List Char × List Char)
  | '"' :: rest => basicText rest
  | '\'' :: rest => literalText rest
  | cs =>
      match cs.takeWhile isBareKeyChar with
      | [] => none
      | key => some (key, cs.dropWhile isBareKeyChar)

/-- The number of parts that a dotted key may have, and of levels to which values may be nested. -/
def depthLimit : Nat := 79

/-- The parts of a dotted key that begins here, blanks around each part passed over. -/
def dottedKey? (cs : List Char) : Option (List String × List Char) :=
  match simpleKey? (skipBlanks cs) with
  | none => none
  | some (key, rest) =>
      match skipBlanks rest with
      | '.' :: after =>
          if after.length < cs.length then
            (dottedKey? after).map fun read => (String.ofList key :: read.1, read.2)
          else none
      | after => some ([String.ofList key], after)
termination_by cs.length

/-- The key that begins here: the tables that lead to it, and its last part. -/
def key? (cs : List Char) : Option ((List String × String) × List Char) :=
  match dottedKey? cs with
  | none => none
  | some (parts, rest) =>
      if depthLimit < parts.length then none
      else parts.getLast?.map fun last => ((parts.dropLast, last), rest)

end SiteCompiler.Toml
