import SiteCompiler.Candidate.Registry
import SiteCompiler.Html.Forest
import SiteCompiler.Text.Blank
set_option autoImplicit false

/-! # Which candidates a page uses

A page uses the candidates whose names stand in its `class` attributes. They are listed in the
order of first use: an element's own classes come first, then those in its contents if it is a
template, then those of its children.
-/

namespace SiteCompiler

namespace Html

/-- The words in the `class` attributes of an element. -/
def ElementKind.classes (kind : ElementKind) : List String :=
  (kind.attributes.filter fun a => a.1 == "class").flatMap fun a =>
    (Text.words a.2.toList).map String.ofList

end Html

namespace Candidate

/-- The names used so far with one more class word, if it is registered and new. -/
def addUsed (registry : Registry) (used : List String) (word : String) : List String :=
  if registry.contains word && !used.contains word then used ++ [word] else used

mutual

/-- The names used so far with those that an element and the elements in it add. -/
def usedByNode (registry : Registry) (used : List String) : Html.Node → List String
  | .element kind contents children =>
      let used := kind.classes.foldl (addUsed registry) used
      -- The contents of a template are a fragment of their own.
      let used := usedByNodes registry used contents
      usedByNodes registry used children

/-- The names used so far with those that a list of elements adds. -/
def usedByNodes (registry : Registry) (used : List String) : List Html.Node → List String
  | [] => used
  | node :: nodes => usedByNodes registry (usedByNode registry used node) nodes

end

/-- The registered names among the class words of elements, in order of first use. -/
def usedIn (registry : Registry) (nodes : List Html.Node) : List String :=
  usedByNodes registry [] nodes

/-- The candidates that a page uses, in order of first use, as a parser reads the page. -/
def used (parse : String → List Html.Node) (registry : Registry) (html : String) : List String :=
  usedIn registry (parse html)

end Candidate

end SiteCompiler
