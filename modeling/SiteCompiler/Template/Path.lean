import SiteCompiler.FileTree.Walk
set_option autoImplicit false

/-! # Which template a component stands for

The segments of a component name, cut at `-`, are directories below the templates directory, and
the last one is the file: `ui-cards-hero` is `ui/cards/hero.html`. An element may name its template
itself, by a path from the templates directory.
-/

namespace SiteCompiler

/-- The extension of page and template files. -/
def markupExtension : String := "html"

namespace Template

/-- The attribute by which an element names its template. -/
def sourceAttribute : String := "_c_template-source"

/-- The template's path by convention. -/
def path (templatesDir : Path) (name : String) : Path :=
  let parts := (name.toList.splitOn '-').map String.ofList
  (templatesDir.joinAll (parts.dropLast.map OsText.ofText)).join
    (parts.getLast?.getD "" ++ "." ++ markupExtension : String)

/-- Why no template can be named for a component. -/
inductive ResolveError where
  | templateNotFound (component : String) (path : Path)
  | overrideNotFound (value : String) (path : Path)
  deriving DecidableEq, Repr

/-- The wording of the error. -/
def ResolveError.message : ResolveError → String
  | .templateNotFound component path =>
      "Template not found for component \"" ++ component ++ "\": expected at " ++ path.text
  | .overrideNotFound value path =>
      "Template source override not found: " ++ path.text ++ " (from " ++ sourceAttribute ++ "=\""
        ++ value ++ "\")"

/-- The path of a component's template, which has to exist. An empty override counts as none. -/
def resolve (tree : FileTree) (templatesDir : Path) (name : String) (override : Option String) :
    Except ResolveError Path :=
  match override.filter (· ≠ "") with
  | some value =>
      let path := templatesDir.join value
      if tree.pathExists path then .ok path else .error (.overrideNotFound value path)
  | none =>
      let path := path templatesDir name
      if tree.pathExists path then .ok path else .error (.templateNotFound name path)

end Template

end SiteCompiler
