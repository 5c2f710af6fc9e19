import SiteCompiler.Html.Forest
import SiteCompiler.Stylesheet.Layered
import SiteCompiler.Toml.Value
set_option autoImplicit false

/-! # What is left to libraries

Three jobs are done by libraries: CSS is minified, documents are parsed and configuration files are
read. Nothing here depends on how they do it, so they stand as functions.
-/

namespace SiteCompiler

/-- The libraries of a build. -/
structure Libraries where
  /-- The short form of a stylesheet. -/
  minify : String → Except Stylesheet.CssError String
  /-- The elements of a document. -/
  parseHtml : String → List Html.Node
  /-- The keys of a configuration file with their values; nothing if it is not well-formed. -/
  readToml : String → Option (List (String × Toml.Value))

end SiteCompiler
