import SiteCompiler.Candidate.Layer
set_option autoImplicit false

/-! # Layered text

A stylesheet names the cascade layers in their order and then gives one `@layer` block for each
layer that has chunks, with the chunks on lines of their own. Without any chunk it is empty. A
minifier, if one is asked for, gets the stylesheet as a whole.
-/

namespace SiteCompiler.Stylesheet

/-- The statement that fixes the order of the layers. -/
def orderStatement : String := "@layer " ++ String.intercalate ", " (Layer.all.map Layer.name) ++ ";"

/-- The block of one layer. -/
def block (layer : Layer) (chunks : List String) : String :=
  "@layer " ++ layer.name ++ " \x7b\n" ++ String.intercalate "\n" chunks ++ "\n\x7d"

/-- The blocks of the layers that have chunks, in cascade order. -/
def blocks (chunks : Chunks) : List String :=
  (Layer.all.filter fun layer => !(chunks layer).isEmpty).map fun layer =>
    block layer (chunks layer)

/-- The layered text of chunks. -/
def layered (chunks : Chunks) : String :=
  match blocks chunks with
  | [] => ""
  | blocks => orderStatement ++ "\n" ++ String.intercalate "\n" blocks

/-- Why a minifier has no short form for a text, in its own words. -/
inductive CssError where
  | parse (details : String)
  | minify (details : String)
  | print (details : String)
  deriving DecidableEq, Repr

/-- The wording of the error. -/
def CssError.message : CssError → String
  | .parse details => "CSS parse error: " ++ details
  | .minify details => "CSS minify error: " ++ details
  | .print details => "CSS print error: " ++ details

/-- The stylesheet of chunks, minified if that is asked for. Without any chunk it is empty, and the
minifier is not asked. -/
def generate (minify : String → Except CssError String) (chunks : Chunks) (minified : Bool) :
    Except CssError String :=
  let text := layered chunks
  if minified && text ≠ "" then minify text else .ok text

end SiteCompiler.Stylesheet
