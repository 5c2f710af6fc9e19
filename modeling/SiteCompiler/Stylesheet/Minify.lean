import SiteCompiler.Stylesheet.Layered
import SiteCompiler.Stylesheet.Rule
set_option autoImplicit false

/-! # Minification

A stylesheet is read as rules, tidied and written in its shortest form. Tidying drops style rules
without declarations, puts the declarations of a rule in a fixed order, and gathers each layer in
the place where it is first named. A layer that holds nothing is only named, and neighbours of that
kind share one statement.
-/

namespace SiteCompiler.Stylesheet

/-! ## Tidying -/

/-- Where a declaration stands in its rule. Those of rank zero come first, as they are written. -/
def Declaration.rank (declaration : Declaration) : Nat :=
  match String.ofList declaration.property with
  | "gap" => 1
  | "margin" => 2
  | "padding" => 3
  | "text-decoration" => 4
  | "display" => 5
  | _ => 0

/-- The declarations of a rule in their order. -/
def arrange (declarations : List Declaration) : List Declaration :=
  declarations.mergeSort fun a b => a.rank ≤ b.rank

/-- Whether a rule is the block of a layer. -/
def Rule.isLayer (name : String) : Rule → Bool
  | .layer other _ => other == name
  | _ => false

/-- Adds rules to the block of a layer. -/
def Rule.extend (name : String) (rules : List Rule) : Rule → Rule
  | .layer other inner => if other = name then .layer other (inner ++ rules) else .layer other inner
  | rule => rule

/-- Adds a rule behind others. The block of a layer joins the one that is there already. -/
def place (done : List Rule) (rule : Rule) : List Rule :=
  match rule with
  | .layer name rules =>
      if done.any (Rule.isLayer name) then done.map (Rule.extend name rules) else done ++ [rule]
  | _ => done ++ [rule]

mutual

/-- What is left of a rule. -/
def Rule.tidy : Rule → List Rule
  | .style selectors declarations =>
      if declarations.isEmpty then [] else [.style selectors (arrange declarations)]
  | .layer name rules => [.layer name ((tidyAll rules).foldl place [])]
  | .layerNames names => names.map fun name => .layer name []

/-- What is left of rules, layers not yet gathered. -/
def tidyAll : List Rule → List Rule
  | [] => []
  | rule :: rest => rule.tidy ++ tidyAll rest

end

/-- Rules in their tidied form. -/
def tidy (rules : List Rule) : List Rule := (tidyAll rules).foldl place []

/-! ## Writing -/

/-- The text of a value: a blank beside a comma or before a mark of importance is left out. -/
def valueTokens : List Token → List Token
  | .mark ',' :: .space :: rest => .mark ',' :: valueTokens rest
  | .space :: .mark ',' :: rest => valueTokens (.mark ',' :: rest)
  | .space :: .mark '!' :: rest => .mark '!' :: valueTokens rest
  | token :: rest => token :: valueTokens rest
  | [] => []
termination_by tokens => tokens.length

/-- The text of a declaration. -/
def Declaration.text (declaration : Declaration) : String :=
  String.ofList declaration.property ++ ":" ++ tokensText (valueTokens declaration.value)

/-- The statement that names layers; none if there is no name. -/
def namesText (names : List String) : String :=
  if names.isEmpty then "" else "@layer " ++ String.intercalate "," names ++ ";"

/-- What stands in a block. -/
def braced (text : String) : String := "\x7b" ++ text ++ "\x7d"

mutual

/-- The text of a rule. -/
def Rule.text : Rule → String
  | .style selectors declarations =>
      String.intercalate "," (selectors.map fun selector => String.ofList selector.text)
        ++ braced (String.intercalate ";" (declarations.map Declaration.text))
  | .layer name rules => "@layer " ++ name ++ braced (rulesText [] rules)
  | .layerNames names => namesText names

/-- The text of rules behind layers that are only named. -/
def rulesText (named : List String) : List Rule → String
  | [] => namesText named
  | .layer name [] :: rest => rulesText (named ++ [name]) rest
  | rule :: rest => namesText named ++ rule.text ++ rulesText [] rest

end

/-- The shortest form of a stylesheet. -/
def minify (text : String) : Except CssError String :=
  match rules text with
  | .error e => .error (.parse e.message)
  | .ok rules => .ok (rulesText [] (tidy rules))

end SiteCompiler.Stylesheet
