import SiteCompiler.Html.CharacterReference
import SiteCompiler.Text.Search
set_option autoImplicit false

/-! # Tokens of an HTML document

A document is read as a sequence of tags and stretches of text. Of the text only its kind is kept:
whether it is blank, since blanks are treated apart in many places, and whether it is a null
character. Comments, declarations and processing instructions are one kind of token, for nothing
depends on what they say.

A tag whose `>` is missing is dropped with everything after it.
-/

namespace SiteCompiler.Html

/-- A start tag: its name in lower case, its attributes with distinct names, and whether it is
written `<name … />`. -/
structure StartTag where
  name : String
  attributes : List (String × String)
  selfClosing : Bool
  deriving DecidableEq, Repr

/-- A token of a document. -/
inductive Token where
  | startTag (tag : StartTag)
  | endTag (name : String)
  | comment
  | null
  /-- Blank characters. -/
  | blank (chars : List Char)
  /-- Text that does not begin with a blank. -/
  | text
  | endOfFile
  deriving DecidableEq, Repr

namespace Token

/-- The blanks that HTML knows. -/
def isSpace (c : Char) : Bool := c == ' ' || c == '\t' || c == '\n' || c == '\x0c' || c == '\r'

/-- A character in a name or value: a null character is replaced. -/
def cleaned (c : Char) : Char := if c = '\x00' then CharacterReference.replacementChar else c

/-! ## Attributes

The source between the name of a tag and its `>` is read character by character. -/

/-- How far the reading of a tag's attributes has come. Names and values are collected in
reverse. -/
inductive AttributeState where
  | beforeName
  | name (read : List Char)
  | afterName (name : List Char)
  | beforeValue (name : List Char)
  | quoted (quote : Char) (name read : List Char)
  | bare (name read : List Char)
  | afterValue
  | slash

/-- The attributes of a tag, with one more if its name is new. -/
def addAttribute (found : List (String × String)) (name value : List Char) :
    List (String × String) :=
  let name := String.ofList name.reverse
  if (found.lookup name).isSome then found
  else found ++ [(name, String.ofList (CharacterReference.decode value.reverse))]

/-- What one character does: go on, with the attributes found so far, or end the tag. -/
inductive AttributeStep where
  | next (state : AttributeState) (found : List (String × String))
  | finish (found : List (String × String)) (selfClosing : Bool)

/-- A character where an attribute name may begin. -/
def atName (found : List (String × String)) (c : Char) : AttributeStep :=
  if isSpace c then .next .beforeName found
  else if c = '/' then .next .slash found
  else if c = '>' then .finish found false
  else .next (.name [cleaned c.toLower]) found

/-- A character after an attribute name. -/
def atNameEnd (found : List (String × String)) (name : List Char) (c : Char) : AttributeStep :=
  if isSpace c then .next (.afterName name) found
  else if c = '=' then .next (.beforeValue name) found
  else atName (addAttribute found name []) c

/-- What a character does in each state. -/
def attributeStep (found : List (String × String)) : AttributeState → Char → AttributeStep
  | .beforeName, c => atName found c
  | .name read, c =>
      if isSpace c ∨ c = '/' ∨ c = '>' ∨ c = '=' then atNameEnd found read c
      else .next (.name (cleaned c.toLower :: read)) found
  | .afterName name, c => atNameEnd found name c
  | .beforeValue name, c =>
      if isSpace c then .next (.beforeValue name) found
      else if c = '"' ∨ c = '\'' then .next (.quoted c name []) found
      else if c = '>' then .finish (addAttribute found name []) false
      else .next (.bare name [cleaned c]) found
  | .quoted quote name read, c =>
      if c = quote then .next .afterValue (addAttribute found name read)
      else .next (.quoted quote name (cleaned c :: read)) found
  | .bare name read, c =>
      if isSpace c then .next .beforeName (addAttribute found name read)
      else if c = '>' then .finish (addAttribute found name read) false
      else .next (.bare name (cleaned c :: read)) found
  | .afterValue, c => atName found c
  | .slash, c => if c = '>' then .finish found true else atName found c

/-- Reads the attributes of a tag through its `>`: the attributes, whether the tag closes itself,
and what follows it. -/
def attributesFrom (found : List (String × String)) (state : AttributeState) :
    List Char → Option (List (String × String) × Bool × List Char)
  | [] => none
  | c :: cs =>
      match attributeStep found state c with
      | .next state found => attributesFrom found state cs
      | .finish found selfClosing => some (found, selfClosing, cs)

/-! ## Tags, comments and text -/

/-- Whether a character ends the name of a tag. -/
def endsTagName (c : Char) : Bool := isSpace c || c == '/' || c == '>'

/-- The tag with the name that `cs` begins with, as a token, and what follows it. -/
def readTag (closing : Bool) (cs : List Char) : List Token × List Char :=
  let name := (cs.takeWhile fun c => !endsTagName c).map fun c => cleaned c.toLower
  match attributesFrom [] .beforeName (cs.dropWhile fun c => !endsTagName c) with
  | none => ([], [])
  | some (found, selfClosing, rest) =>
      let name := String.ofList name
      (if closing then [.endTag name] else [.startTag ⟨name, found, selfClosing⟩], rest)

/-- What follows the next `>`. -/
def afterGreater (cs : List Char) : List Char := (cs.dropWhile (· ≠ '>')).drop 1

/-- What follows a comment, read after its `<!--`. It may be closed at once by `>` or `->`. -/
def afterComment (cs : List Char) : List Char :=
  match cs with
  | '>' :: rest => rest
  | '-' :: '>' :: rest => rest
  | _ =>
      match Text.breakBefore? (fun tail =>
          "-->".toList.isPrefixOf tail || "--!>".toList.isPrefixOf tail) cs with
      | some (_, tail) => afterGreater tail
      | none => []

/-- The tokens of a run of text without null characters or references. -/
def ofPlainText (cs : List Char) : List Token :=
  let blank := cs.takeWhile isSpace
  let rest := cs.dropWhile isSpace
  (if blank.isEmpty then [] else [.blank blank]) ++ (if rest.isEmpty then [] else [.text])

/-- The tokens of a `[CDATA[` section, read after that opening. -/
def readCharacterData (cs : List Char) : List Token × List Char :=
  match Text.breakOn? "]]>".toList cs with
  | some (inside, rest) => (ofPlainText inside, rest)
  | none => (ofPlainText cs, [])

/-- The token after a `<!`. -/
def readDeclaration (inForeign : Bool) (cs : List Char) : List Token × List Char :=
  match "--".toList.isPrefixOf? cs with
  | some rest => ([.comment], afterComment rest)
  | none =>
      match inForeign, "[CDATA[".toList.isPrefixOf? cs with
      | true, some rest => readCharacterData rest
      | _, _ => ([.comment], afterGreater cs)

/-- The tokens that a `<` begins, read after it. -/
def readMarkup (inForeign : Bool) : List Char → List Token × List Char
  | '!' :: cs => readDeclaration inForeign cs
  | '?' :: cs => ([.comment], afterGreater cs)
  | '/' :: '>' :: cs => ([], cs)
  | '/' :: c :: cs =>
      if c.isAlpha then readTag true (c :: cs) else ([.comment], afterGreater (c :: cs))
  | c :: cs => if c.isAlpha then readTag false (c :: cs) else ([.text], c :: cs)
  | [] => ([.text], [])

/-- Whether a character belongs to a run of plain text. -/
def isPlain (c : Char) : Bool := c != '<' && c != '&' && c != '\x00'

/-- The first tokens of a text that is not empty, and the text after them. `inForeign` tells
whether the element being read is an SVG or MathML element. -/
def read (inForeign : Bool) : List Char → List Token × List Char
  | '<' :: cs => readMarkup inForeign cs
  | '&' :: cs =>
      match CharacterReference.read? false cs with
      | some (chars, rest) => (ofPlainText chars, rest)
      | none => ([.text], cs)
  | '\x00' :: cs => ([.null], cs)
  | cs => (ofPlainText (cs.takeWhile isPlain), cs.dropWhile isPlain)

/-- Line ends in one form: `\r\n` and `\r` are `\n`. -/
def normalizeNewlines : List Char → List Char
  | '\r' :: '\n' :: cs => '\n' :: normalizeNewlines cs
  | '\r' :: cs => '\n' :: normalizeNewlines cs
  | c :: cs => c :: normalizeNewlines cs
  | [] => []

end Token

end SiteCompiler.Html
