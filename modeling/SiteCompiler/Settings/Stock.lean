set_option autoImplicit false

/-! # The stock configuration file

A configuration file that states every default and explains it, for an author to start from.
-/

namespace SiteCompiler.Settings

/-- The lines of the stock configuration file. -/
def stockLines : List String :=
  [ "# dinomlx configuration",
    "# =====================",
    "# All settings are optional. Remove or comment out any you don't need.",
    "# Values shown below are the defaults. Unknown keys cause an error.",
    "",
    "# ---------------------------------------------------------------------------",
    "# Source layout (relative to the source root)",
    "# ---------------------------------------------------------------------------",
    "[paths]",
    "# Page files. Every *.html file here becomes one output page.",
    "pages = \"pages\"",
    "",
    "# Component templates. <c-ui-cards-hero> resolves to templates/ui/cards/hero.html.",
    "templates = \"templates\"",
    "",
    "# Candidates: candidates/<layer>/<name>/critical.css and/or non-critical.css,",
    "# where <layer> is one of global, layout, components, utils.",
    "candidates = \"candidates\"",
    "",
    "# Probe document. Candidates used here are inlined as critical CSS on every",
    "# page; everything else goes to the external stylesheet.",
    "above_the_fold = \"above-the-fold.html\"",
    "",
    "# ---------------------------------------------------------------------------",
    "# Generated CSS",
    "# ---------------------------------------------------------------------------",
    "[css]",
    "# Minify generated stylesheets.",
    "minify = true",
    "",
    "# Log an info line when a page's inline critical CSS exceeds this many bytes.",
    "notice_bytes = 2048",
    "",
    "# Log a warning when a page's inline critical CSS exceeds this many bytes.",
    "warn_bytes = 4096",
    "",
    "# ---------------------------------------------------------------------------",
    "# Processing",
    "# ---------------------------------------------------------------------------",
    "[processing]",
    "# Maximum parallel page workers.",
    "# Omit or comment out to auto-detect (= number of CPU cores).",
    "# max_processes = 4" ]

/-- The stock configuration file. -/
def stock : String := String.join (stockLines.map fun line => line ++ "\n")

end SiteCompiler.Settings
