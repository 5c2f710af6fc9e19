set_option autoImplicit false

/-! # What a build produces -/

namespace SiteCompiler

/-- A page as it is written out. -/
structure BuiltPage where
  relativePath : String
  html : String
  /-- The size of the critical CSS in bytes. -/
  criticalCssSize : Nat
  /-- The candidates that the page uses, in order of first use. -/
  usedCandidates : List String
  deriving DecidableEq, Repr

/-- A built site: its pages, its stylesheet, and the candidates used above the fold. -/
structure BuildResult where
  pages : List BuiltPage
  nonCriticalCss : String
  criticalCandidates : List String
  deriving DecidableEq, Repr

namespace BuildResult

/-- The site without pages. -/
def empty : BuildResult := ⟨[], "", []⟩

/-- Whether the site has a stylesheet to write. -/
def hasStylesheet (result : BuildResult) : Bool := !result.nonCriticalCss.isEmpty

/-- The size of the stylesheet in bytes. -/
def stylesheetSize (result : BuildResult) : Nat := result.nonCriticalCss.utf8ByteSize

end BuildResult

end SiteCompiler
