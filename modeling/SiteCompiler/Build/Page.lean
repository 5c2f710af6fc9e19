import SiteCompiler.Build.Event
import SiteCompiler.Build.Result
import SiteCompiler.Candidate.Usage
import SiteCompiler.Library
import SiteCompiler.Page.Discovery
import SiteCompiler.Page.Placeholder
import SiteCompiler.Settings.Load
import SiteCompiler.Stylesheet.Collect
import SiteCompiler.Template.Expand
set_option autoImplicit false

/-! # Building a page

A page is read and expanded; the CSS of the candidates that it uses is collected and split; the
critical part goes into the page and the rest only decides whether the page links to the site's
stylesheet. That stylesheet is made of the non-critical CSS of all pages.
-/

namespace SiteCompiler

/-- Why a site could not be built. -/
inductive BuildError where
  | scan (error : ScanError)
  | probe (error : Template.CompileError)
  | unreadablePage (path : Path) (error : FileError)
  | template (page : String) (error : Template.CompileError)
  | pageCss (page : String) (error : Stylesheet.CssError)
  | stylesheet (error : Stylesheet.CssError)
  | emit (error : FileError)
  deriving DecidableEq, Repr

/-- The wording of the error. -/
def BuildError.message : BuildError → String
  | .scan error => "Scan error: " ++ error.message
  | .probe error => "Above-the-fold probe failed: " ++ error.message
  | .unreadablePage path error => "Failed to read page " ++ path.text ++ ": " ++ error.message
  | .template page error => "Failed to compile " ++ page ++ ": " ++ error.message
  | .pageCss page error => "Failed to generate CSS for " ++ page ++ ": " ++ error.message
  | .stylesheet error => "Failed to generate site stylesheet: " ++ error.message
  | .emit error => "Emit error: IO error: " ++ error.message

namespace Build

/-- The candidates that are used above the fold, as the probe document shows. A probe that cannot
be read shows none, which is reported. -/
def aboveTheFold (libraries : Libraries) (tree : FileTree) (probe templatesDir : Path)
    (registry : Registry) : Except Template.CompileError (List String × List Event) :=
  match tree.readText probe with
  | .error _ => .ok ([], [.unreadableProbe probe])
  | .ok html => do
      let expanded ← Template.compile tree templatesDir html
      .ok (Candidate.used libraries.parseHtml registry expanded, [])

/-- What the building of every page of a site depends on. -/
structure PageContext where
  libraries : Libraries
  tree : FileTree
  templatesDir : Path
  registry : Registry
  aboveTheFold : List String
  basePath : String
  css : CssSettings

/-- The report on the size of a page's critical CSS, if it is above a limit. -/
def sizeEvents (css : CssSettings) (page : String) (size : Nat) : List Event :=
  if css.warnBytes < size then [.criticalCssLarge page size css.warnBytes]
  else if css.noticeBytes < size then [.criticalCssNoticed page size css.noticeBytes]
  else []

/-- The CSS of a page: the candidates that it uses, and their CSS split. -/
def pageCss (registry : Registry) (aboveTheFold : List String) (used : List String) :
    CollectedCss :=
  (CollectedCss.collect registry used).split registry aboveTheFold

/-- Builds a page from its expanded document. -/
def finishPage (context : PageContext) (relativePath expanded : String) :
    Except Stylesheet.CssError BuiltPage := do
  let used := Candidate.used context.libraries.parseHtml context.registry expanded
  let css := pageCss context.registry context.aboveTheFold used
  let critical ← Stylesheet.generate context.libraries.minify css.critical context.css.minify
  let nonCritical ← Stylesheet.generate context.libraries.minify css.nonCritical context.css.minify
  .ok {
    relativePath
    html := Page.replacePlaceholders expanded critical nonCritical context.basePath
    criticalCssSize := critical.utf8ByteSize
    usedCandidates := used }

/-- Builds a page from its file. -/
def page (context : PageContext) (file : PageFile) : Except BuildError BuiltPage :=
  match context.tree.readText file.path with
  | .error e => .error (.unreadablePage file.path e)
  | .ok html =>
      match Template.compile context.tree context.templatesDir html with
      | .error e => .error (.template file.relativePath e)
      | .ok expanded =>
          match finishPage context file.relativePath expanded with
          | .error e => .error (.pageCss file.relativePath e)
          | .ok page => .ok page

/-- The candidates that any of the pages uses, in order of first use. -/
def usedByAny (pages : List BuiltPage) : List String :=
  (pages.flatMap BuiltPage.usedCandidates).eraseDups

/-- The non-critical CSS of all pages, each chunk of a layer once. -/
def siteChunks (registry : Registry) (aboveTheFold : List String) (pages : List BuiltPage) :
    Chunks := fun layer =>
  ((pageCss registry aboveTheFold (usedByAny pages)).nonCritical layer).eraseDups

/-- The stylesheet of a site. -/
def siteStylesheet (libraries : Libraries) (registry : Registry) (aboveTheFold : List String)
    (pages : List BuiltPage) (minified : Bool) : Except Stylesheet.CssError String :=
  Stylesheet.generate libraries.minify (siteChunks registry aboveTheFold pages) minified

end Build

end SiteCompiler
