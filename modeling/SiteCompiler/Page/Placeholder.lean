import SiteCompiler.Text.Search
set_option autoImplicit false

/-! # Putting the CSS into a page

A page says with two placeholders where its critical CSS and the link to the site's stylesheet go.
The first occurrence of each is replaced, the critical one first. If a page has no placeholder and
there is CSS for it, both are put at the end of the head, or at its beginning if its end is not to
be found, or in front of everything.
-/

namespace SiteCompiler.Page

/-- Stands for the critical CSS. -/
def criticalPlaceholder : String := "$#critical-css"

/-- Stands for the link to the stylesheet. -/
def nonCriticalPlaceholder : String := "$#non-critical-css"

/-- The file name of the site's stylesheet. -/
def stylesheetName : String := "styles.css"

/-- The address of the stylesheet for a site that is served below `basePath`. -/
def stylesheetHref (basePath : String) : String :=
  if basePath.isEmpty then stylesheetName
  else
    String.ofList (basePath.toList.reverse.dropWhile (· == '/')).reverse ++ "/" ++ stylesheetName

/-- A character as it is written in the value of an attribute. -/
def escapeChar (c : Char) : List Char :=
  match c with
  | '&' => "&amp;".toList
  | '<' => "&lt;".toList
  | '>' => "&gt;".toList
  | '"' => "&quot;".toList
  | c => [c]

/-- A text as it is written in the value of an attribute. -/
def escape (text : String) : String := String.ofList (text.toList.flatMap escapeChar)

/-- The element that holds the critical CSS; nothing if there is none. -/
def criticalTag (css : String) : String :=
  if css.isEmpty then "" else "<style>" ++ css ++ "</style>"

/-- The elements that load the stylesheet without delaying the page; nothing if it is empty. -/
def nonCriticalTag (css href : String) : String :=
  if css.isEmpty then ""
  else
    "<link rel=\"preload\" href=\"" ++ escape href
      ++ "\" as=\"style\" onload=\"this.onload=null;this.rel='stylesheet'\">"
      ++ "<noscript><link rel=\"stylesheet\" href=\"" ++ escape href ++ "\"></noscript>"

/-- Whether `needle` occurs in a text. -/
def mentions (needle text : String) : Bool := Text.occursIn needle.toList text.toList

/-- The text with the first occurrence of `needle` replaced. -/
def substitute (needle replacement text : String) : String :=
  String.ofList (Text.replaceFirst needle.toList replacement.toList text.toList)

/-- The page with `tags` in its head. -/
def inject (html tags : String) : String :=
  if mentions "</head>" html then substitute "</head>" (tags ++ "\n</head>") html
  else if mentions "<head>" html then substitute "<head>" ("<head>\n" ++ tags) html
  else tags ++ "\n" ++ html

/-- The page with its critical CSS and the link to the stylesheet. -/
def replacePlaceholders (html criticalCss nonCriticalCss basePath : String) : String :=
  let critical := criticalTag criticalCss
  let nonCritical := nonCriticalTag nonCriticalCss (stylesheetHref basePath)
  let hasCritical := mentions criticalPlaceholder html
  let hasNonCritical := mentions nonCriticalPlaceholder html
  if hasCritical || hasNonCritical then
    let filled := if hasCritical then substitute criticalPlaceholder critical html else html
    if hasNonCritical then substitute nonCriticalPlaceholder nonCritical filled else filled
  else if criticalCss.isEmpty && nonCriticalCss.isEmpty then html
  else inject html (critical ++ nonCritical)

end SiteCompiler.Page
