import SiteCompiler.Text.Search
set_option autoImplicit false

/-! # Tokens of CSS

CSS text is read as names, numbers with their units, quoted strings, blanks and single marks. A
run of blanks is one token and comments are none. Every text has tokens: what is not closed runs
to the end of the text.
-/

namespace SiteCompiler.Stylesheet

/-- A token of CSS text. -/
inductive Token where
  | space
  | name (text : List Char)
  | number (digits unit : List Char)
  | quoted (text : List Char)
  | mark (c : Char)
  deriving DecidableEq, Repr

namespace Token

/-- The blanks of CSS. -/
def isSpace (c : Char) : Bool :=
  c == ' ' || c == '\n' || c == '\t' || c == '\r' || c == '\x0c'

/-- The characters that a name can begin with. -/
def isNameStart (c : Char) : Bool := c.isAlpha || c == '_' || 0x80 ≤ c.toNat

/-- The characters of a name. -/
def isNameChar (c : Char) : Bool := isNameStart c || c.isDigit || c == '-'

/-- Whether a name begins here. A hyphen begins one if a name or another hyphen follows. -/
def beginsName : List Char → Bool
  | '-' :: c :: _ => isNameStart c || c == '-'
  | c :: _ => isNameStart c
  | [] => false

/-- The digits of an unsigned number: a whole part, a fraction or both. -/
def unsignedDigits (cs : List Char) : List Char :=
  let whole := cs.takeWhile Char.isDigit
  match cs.dropWhile Char.isDigit with
  | '.' :: rest =>
      match rest.takeWhile Char.isDigit with
      | [] => whole
      | fraction => whole ++ '.' :: fraction
  | _ => whole

/-- The digits of a number that begins here, with its sign; empty if none begins here. -/
def numberDigits : List Char → List Char
  | [] => []
  | c :: rest =>
      if c == '-' || c == '+' then
        match unsignedDigits rest with
        | [] => []
        | digits => c :: digits
      else unsignedDigits (c :: rest)

/-- The unit right behind a number. -/
def numberUnit (cs : List Char) : List Char :=
  match cs with
  | '%' :: _ => ['%']
  | _ => if beginsName cs then cs.takeWhile isNameChar else []

/-- What follows the end of a comment. -/
def afterComment (cs : List Char) : List Char :=
  match Text.breakOn? ['*', '/'] cs with
  | some cut => cut.2
  | none => []

/-- The text of a string up to its closing quote. -/
def quotedText (quote : Char) : List Char → List Char
  | [] => []
  | '\\' :: c :: rest => '\\' :: c :: quotedText quote rest
  | c :: rest => if c = quote then [] else c :: quotedText quote rest

/-- The token that a text begins with and the number of characters it takes up; a comment takes up
characters and is no token. -/
def first (c : Char) (rest : List Char) : Option Token × Nat :=
  let number := numberDigits (c :: rest)
  if isSpace c then (some .space, 1 + (rest.takeWhile isSpace).length)
  else if c == '/' && rest.head? == some '*' then
    (none, rest.length - (afterComment rest.tail).length + 1)
  else if c == '"' || c == '\'' then
    let text := quotedText c rest
    (some (.quoted text), text.length + 2)
  else if !number.isEmpty then
    let unit := numberUnit ((c :: rest).drop number.length)
    (some (.number number unit), number.length + unit.length)
  else if beginsName (c :: rest) then
    let text := (c :: rest).takeWhile isNameChar
    (some (.name text), text.length)
  else (some (.mark c), 1)

/-- The tokens of a text. Every token takes up at least one character. -/
def ofText : List Char → List Token
  | [] => []
  | c :: rest =>
      let (token, count) := first c rest
      token.toList ++ ofText (rest.drop (count - 1))
termination_by cs => cs.length
decreasing_by simp only [List.length_drop, List.length_cons]; omega

/-- The text of a number, with neither a zero nor a sign that says nothing. -/
def shortDigits (digits : List Char) : List Char :=
  let unsigned := digits.dropWhile fun c => c == '-' || c == '+'
  let whole := (unsigned.takeWhile (· ≠ '.')).dropWhile (· == '0')
  let fraction := ((unsigned.dropWhile (· ≠ '.')).drop 1).reverse.dropWhile (· == '0')
  let body := if fraction.isEmpty then whole else whole ++ '.' :: fraction.reverse
  if body.isEmpty then ['0']
  else if digits.head? == some '-' then '-' :: body else body

/-- The units of lengths, which a zero does without. -/
def lengthUnits : List String :=
  ["px", "rem", "em", "ex", "ch", "vw", "vh", "vmin", "vmax", "cm", "mm", "in", "pt", "pc"]

/-- The shortest text of a token. -/
def text : Token → List Char
  | space => [' ']
  | name text => text
  | number digits unit =>
      let short := shortDigits digits
      if short == ['0'] && lengthUnits.contains (String.ofList unit) then short else short ++ unit
  | quoted text => '"' :: text ++ ['"']
  | mark c => [c]

/-- Whether the token is a blank. -/
def isBlankToken (token : Token) : Bool := token == space

/-- Tokens without the blanks at both ends. -/
def trim (tokens : List Token) : List Token :=
  ((tokens.dropWhile isBlankToken).reverse.dropWhile isBlankToken).reverse

end Token

end SiteCompiler.Stylesheet
