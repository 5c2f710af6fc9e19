import SiteCompiler.Build.Result
import SiteCompiler.JsonValue
import SiteCompiler.Page.Placeholder
set_option autoImplicit false

/-! # The manifest of a build

The manifest records what was built and how large it is, but not the contents.
-/

namespace SiteCompiler.Manifest

/-- The file name of the manifest. -/
def fileName : String := "build-manifest.json"

/-- A list of texts. -/
def textList (texts : List String) : JsonValue := .list (texts.map JsonValue.text)

/-- The record of one page. -/
def ofPage (page : BuiltPage) : JsonValue :=
  .record [("relative_path", .text page.relativePath),
    ("critical_css_size", .number page.criticalCssSize),
    ("used_candidates", textList page.usedCandidates)]

/-- The record of a build. -/
def ofResult (result : BuildResult) : JsonValue :=
  .record [("pages", .list (result.pages.map ofPage)),
    ("critical_candidates", textList result.criticalCandidates),
    ("stylesheet", if result.hasStylesheet then .text Page.stylesheetName else .null),
    ("stylesheet_size", .number result.stylesheetSize)]

/-- The text of the manifest. -/
def text (result : BuildResult) : String := (ofResult result).pretty

end SiteCompiler.Manifest
