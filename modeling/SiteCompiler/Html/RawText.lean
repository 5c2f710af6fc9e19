import SiteCompiler.Html.Token
set_option autoImplicit false

/-! # Contents that are not markup

After the start tag of a script, a style sheet or a few other elements the text up to the matching
end tag is not read as markup. In a script a `<!--` makes a difference: until the next `-->` a
nested `<script>` takes the next `</script>` with it.
-/

namespace SiteCompiler.Html

/-- How the contents of an element are read. -/
inductive Contents where
  | markup
  /-- Text up to the end tag of the element. -/
  | rawText (name : String)
  | script
  /-- Text to the end of the document. -/
  | plain
  deriving DecidableEq, Repr

namespace Contents

/-- Whether a text begins with the name, in any ASCII case, and then a character that ends it. -/
def beginsWithName (name cs : List Char) : Bool :=
  name.isPrefixOf (Text.lowercase (cs.take name.length))
    && (cs.drop name.length).head?.any Token.endsTagName

/-- The text from the end tag of an element on. -/
def fromEndTag (name : List Char) (cs : List Char) : List Char :=
  match Text.breakBefore? (fun tail =>
      "</".toList.isPrefixOf tail && beginsWithName name (tail.drop 2)) cs with
  | some (_, tail) => tail
  | none => []

/-- Where the reading of a script is: outside comments, in a comment, or in a script nested in a
comment. -/
inductive ScriptState where
  | plain
  | escaped
  | doublyEscaped

/-- The name that opens and closes a script. -/
def scriptName : List Char := "script".toList

/-- The text from the end tag of a script on. `dashes` is the number of dashes, at most two, that
stand right before this text. -/
def fromScriptEnd (state : ScriptState) (dashes : Nat) : List Char → List Char
  | [] => []
  | '<' :: cs =>
      let closes := cs.head? == some '/' && beginsWithName scriptName (cs.drop 1)
      match state with
      | .plain =>
          if closes then '<' :: cs
          else if "!--".toList.isPrefixOf cs then fromScriptEnd .escaped 0 cs
          else fromScriptEnd .plain 0 cs
      | .escaped =>
          if closes then '<' :: cs
          else if beginsWithName scriptName cs then fromScriptEnd .doublyEscaped 0 cs
          else fromScriptEnd .escaped 0 cs
      | .doublyEscaped =>
          fromScriptEnd (if closes then .escaped else .doublyEscaped) 0 cs
  | '-' :: cs => fromScriptEnd state (min 2 (dashes + 1)) cs
  | '>' :: cs =>
      if dashes = 2 then fromScriptEnd .plain 0 cs else fromScriptEnd state 0 cs
  | _ :: cs => fromScriptEnd state 0 cs

/-- What is left to read after contents of this kind. -/
def skip (contents : Contents) (cs : List Char) : List Char :=
  match contents with
  | .markup => cs
  | .rawText name => fromEndTag name.toList cs
  | .script => fromScriptEnd .plain 0 cs
  | .plain => []

end Contents

end SiteCompiler.Html
