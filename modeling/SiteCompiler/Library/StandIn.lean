import SiteCompiler.Html.Insertion
import SiteCompiler.Library
import SiteCompiler.Stylesheet.Minify
import SiteCompiler.Toml.Reader
set_option autoImplicit false

/-! # Libraries to run with

The parser of documents and the reader of configuration files follow the standards. The minifier
knows style rules and layers; of other CSS it says that it cannot be parsed.
-/

namespace SiteCompiler

/-- A minifier, a parser and a reader. -/
def Libraries.standIn : Libraries where
  minify := Stylesheet.minify
  parseHtml := Html.parse
  readToml := Toml.read?

end SiteCompiler
