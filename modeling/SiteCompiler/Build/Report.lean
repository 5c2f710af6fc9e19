import SiteCompiler.Build.Result
import SiteCompiler.Candidate.Registry
import SiteCompiler.Decimal.Rounding
import SiteCompiler.Page.Placeholder
set_option autoImplicit false

/-! # Reports

A report is a list of lines for a reader: what was built, or what a check of the site has found.
-/

namespace SiteCompiler.Report

/-- The margin of a line. -/
def indent (depth : Nat) : String := String.ofList (List.replicate (4 * depth) ' ')

/-- A text with zeros in front, so that it has at least three characters. -/
def padded (text : String) : String :=
  String.ofList (List.replicate (3 - text.length) '0') ++ text

/-- Lines with their numbers, counted from one. -/
def numbered {α : Type} (items : List α) : List (String × α) :=
  items.zipIdx.map fun item => (padded (toString (item.2 + 1)), item.1)

/-- A number of bytes in tenths of a kilobyte: the size is taken as a number with 53 binary digits
and rounded to the nearest tenth, a half to the even one. -/
def tenthsOfKilobyte (bytes : Nat) : Nat :=
  Decimal.roundQuotient (10 * Decimal.toSignificand bytes) 1024

/-- A size for a reader. -/
def size (bytes : Nat) : String :=
  if bytes < 1024 then toString bytes ++ " B"
  else
    let tenths := tenthsOfKilobyte bytes
    toString (tenths / 10) ++ "." ++ toString (tenths % 10) ++ " KB"

/-- A number of things. -/
def count (n : Nat) (one many : String) : String := toString n ++ " " ++ if n = 1 then one else many

/-- Names for a reader. -/
def nameList (names : List String) : String :=
  if names.isEmpty then "(none)" else String.intercalate ", " names

/-! ## What was built -/

/-- The lines on one page. -/
def pageLines (page : String × BuiltPage) : List String :=
  [page.1 ++ " " ++ page.2.relativePath, indent 1 ++ "Critical CSS: " ++ size page.2.criticalCssSize]
    ++ if page.2.usedCandidates.isEmpty then []
      else [indent 1 ++ "Candidates: " ++ String.intercalate ", " page.2.usedCandidates]

/-- The line on the stylesheet. -/
def stylesheetLine (result : BuildResult) : String :=
  if result.hasStylesheet then
    indent 1 ++ Page.stylesheetName ++ " (" ++ size result.stylesheetSize ++ ")"
  else indent 1 ++ "(none)"

/-- The report on a build. -/
def build (result : BuildResult) : List String :=
  "Pages" :: (numbered result.pages).flatMap pageLines
    ++ ["", "Stylesheet", stylesheetLine result, "",
      "Built " ++ count result.pages.length "page" "pages"]

/-! ## What a check has found -/

/-- Which fragments a candidate has. -/
def fragmentTags (candidate : Candidate) : String :=
  let tags := (if candidate.criticalCss.isSome then ["critical"] else [])
    ++ (if candidate.nonCriticalCss.isSome then ["non-critical"] else [])
  "[" ++ String.intercalate ", " tags ++ "]"

/-- The candidates of a layer, sorted by name. -/
def layerCandidates (registry : Registry) (layer : Layer) : List Candidate :=
  (registry.candidates.filter fun c => c.layer == layer).mergeSort fun a b => a.name ≤ b.name

/-- The lines on a layer; none if it has no candidates. -/
def layerLines (registry : Registry) (layer : Layer) : List String :=
  match layerCandidates registry layer with
  | [] => []
  | candidates =>
      (indent 1 ++ layer.name ++ " (" ++ toString candidates.length ++ ")")
        :: candidates.map fun c => indent 2 ++ c.name ++ " " ++ fragmentTags c

/-- The line on one page. -/
def checkedPageLine (page : String × BuiltPage) : String :=
  page.1 ++ " " ++ page.2.relativePath ++ " ("
    ++ count page.2.usedCandidates.length "candidate" "candidates" ++ ")"

/-- The report on a check. -/
def check (registry : Registry) (result : BuildResult) : List String :=
  "Candidates" :: Layer.all.flatMap (layerLines registry)
    ++ ["", "Above the fold", indent 1 ++ nameList result.criticalCandidates, "", "Pages"]
    ++ (numbered result.pages).map checkedPageLine
    ++ ["", "Checked " ++ count result.pages.length "page" "pages" ++ ", "
      ++ count registry.size "candidate" "candidates"]

end SiteCompiler.Report
