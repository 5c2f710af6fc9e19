import SiteCompiler.Stylesheet.Selector
set_option autoImplicit false

/-! # Rules of a stylesheet

Tokens are first grouped by their braces into *items*: statements, which a semicolon or the end of
the block ends, and blocks with what stands in front of them. A block that is still open at the end
of the text ends there; a closing brace without a block is an error. Items are then read as rules:
style rules, blocks of a layer, and statements that name layers. Style rules hold declarations
only.
-/

namespace SiteCompiler.Stylesheet

/-- Why a text is no stylesheet. -/
inductive RuleError where
  | strayBrace
  | selectorExpected (text : String)
  | blockExpected (text : String)
  | declarationExpected (text : String)
  deriving DecidableEq, Repr

/-- The wording of the error. -/
def RuleError.message : RuleError → String
  | .strayBrace => "a closing brace without a block"
  | .selectorExpected text => "not a selector: " ++ text
  | .blockExpected text => "a selector without a block: " ++ text
  | .declarationExpected text => "not a declaration: " ++ text

/-- The shortest text of tokens. -/
def tokensText (tokens : List Token) : String := String.ofList (tokens.flatMap Token.text)

/-! ## Grouping by braces -/

/-- A piece of a stylesheet, by its braces and semicolons. -/
inductive Item where
  | statement (tokens : List Token)
  | block (opening : List Token) (items : List Item)

/-- A block in reading: the items it has so far, and the tokens after the last of them. -/
structure Frame where
  items : List Item
  pending : List Token

namespace Frame

/-- Ends the statement in reading, also an empty one. -/
def endStatement (frame : Frame) : Frame := ⟨frame.items ++ [.statement frame.pending], []⟩

/-- The items of a block that ends here: blanks behind the last one are nothing. -/
def finish (frame : Frame) : List Item :=
  if (Token.trim frame.pending).isEmpty then frame.items else frame.endStatement.items

/-- Takes up a block that has ended; what was pending stands in front of it. -/
def addBlock (frame : Frame) (items : List Item) : Frame :=
  ⟨frame.items ++ [.block (Token.trim frame.pending) items], []⟩

/-- One more token. -/
def addToken (frame : Frame) (token : Token) : Frame := ⟨frame.items, frame.pending ++ [token]⟩

end Frame

/-- Reads one token. The first frame is the innermost open block. -/
def readToken (frames : Frame × List Frame) (token : Token) :
    Except RuleError (Frame × List Frame) :=
  match token, frames with
  | .mark '\x7b', (frame, outer) => .ok (⟨[], []⟩, frame :: outer)
  | .mark '\x7d', (_, []) => .error .strayBrace
  | .mark '\x7d', (frame, around :: outer) => .ok (around.addBlock frame.finish, outer)
  | .mark ';', (frame, outer) => .ok (frame.endStatement, outer)
  | token, (frame, outer) => .ok (frame.addToken token, outer)

/-- Ends all blocks that are still open. -/
def closeAll (frame : Frame) (outer : List Frame) : List Item :=
  (outer.foldl (fun inner around => around.addBlock inner.finish) frame).finish

/-- The items of a text. -/
def items (text : List Char) : Except RuleError (List Item) := do
  let (frame, outer) ← (Token.ofText text).foldlM readToken (⟨[], []⟩, [])
  .ok (closeAll frame outer)

/-! ## Rules -/

/-- A declaration: a property and its value. -/
structure Declaration where
  property : List Char
  value : List Token
  deriving DecidableEq, Repr

/-- A rule of a stylesheet. -/
inductive Rule where
  | style (selectors : List Selector) (declarations : List Declaration)
  | layer (name : String) (rules : List Rule)
  | layerNames (names : List String)

/-- The declaration that tokens stand for. -/
def Declaration.ofTokens? (tokens : List Token) : Option Declaration :=
  match tokens with
  | .name property :: rest =>
      match rest.dropWhile Token.isBlankToken with
      | .mark ':' :: value => some ⟨property, Token.trim value⟩
      | _ => none
  | _ => none

/-- The declarations of a style rule; empty statements are passed over. -/
def declarations : List Item → Except RuleError (List Declaration)
  | [] => .ok []
  | .statement tokens :: rest =>
      let tokens := Token.trim tokens
      if tokens.isEmpty then declarations rest
      else
        match Declaration.ofTokens? tokens with
        | none => .error (.declarationExpected (tokensText tokens))
        | some declaration => do .ok (declaration :: (← declarations rest))
  | .block opening _ :: _ => .error (.declarationExpected (tokensText opening))

/-- The names behind `@layer`, if that is how the tokens begin. -/
def layerNames? (tokens : List Token) : Option (List String) :=
  match tokens with
  | .mark '@' :: .name keyword :: rest =>
      if String.ofList keyword = "layer" then
        some ((rest.splitOn (.mark ',')).map fun name => tokensText (Token.trim name))
      else none
  | _ => none

mutual

/-- The rule that an item stands for. -/
def Rule.ofItem : Item → Except RuleError Rule
  | .statement tokens =>
      match layerNames? (Token.trim tokens) with
      | some names => .ok (.layerNames names)
      | none => .error (.blockExpected (tokensText tokens))
  | .block opening items =>
      match layerNames? opening with
      | some [name] => do .ok (.layer name (← rulesOf items))
      | some _ => .error (.selectorExpected (tokensText opening))
      | none =>
          match Selector.listOfTokens? opening with
          | some selectors => do .ok (.style selectors (← declarations items))
          | none => .error (.selectorExpected (tokensText opening))

/-- The rules that items stand for. -/
def rulesOf : List Item → Except RuleError (List Rule)
  | [] => .ok []
  | item :: rest => do
      let rule ← Rule.ofItem item
      .ok (rule :: (← rulesOf rest))

end

/-- The rules of a text. -/
def rules (text : String) : Except RuleError (List Rule) := do rulesOf (← items text.toList)

end SiteCompiler.Stylesheet
