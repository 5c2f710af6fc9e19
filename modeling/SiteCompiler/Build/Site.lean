import SiteCompiler.Build.Emit
import SiteCompiler.Build.Race
import SiteCompiler.Candidate.Load
set_option autoImplicit false

/-! # Building a site

A site is compiled in memory: its candidates are registered, its pages are found, the candidates
used above the fold are determined, and the pages and the stylesheet are built. Nothing is written
before all of that has succeeded, and nothing at all if there is no page. If several pages cannot be
built, a race between them decides about the error. What is reported of the pages is listed in their
order here, whichever of them was done first.
-/

namespace SiteCompiler.Build

/-- What building a site depends on, the files apart. -/
structure SiteContext where
  libraries : Libraries
  paths : BuildPaths
  settings : SiteSettings

namespace SiteContext

/-- The candidates directory. -/
def candidatesDir (site : SiteContext) : Path := site.settings.candidatesDir site.paths.srcRoot

/-- The pages directory. -/
def pagesDir (site : SiteContext) : Path := site.settings.pagesDir site.paths.srcRoot

/-- The templates directory. -/
def templatesDir (site : SiteContext) : Path := site.settings.templatesDir site.paths.srcRoot

/-- The document whose candidates are critical. -/
def probe (site : SiteContext) : Path := site.settings.aboveTheFoldPath site.paths.srcRoot

/-- What the pages depend on. -/
def pageContext (site : SiteContext) (tree : FileTree) (registry : Registry)
    (aboveTheFold : List String) : PageContext where
  libraries := site.libraries
  tree := tree
  templatesDir := site.templatesDir
  registry := registry
  aboveTheFold := aboveTheFold
  basePath := site.paths.basePath
  css := site.settings.css

end SiteContext

/-- The site with these pages, and the reports on them. -/
def compilePages (race : Race) (tree : FileTree) (site : SiteContext) (registry : Registry)
    (files : List PageFile) : Except BuildError (BuildResult × List Event) :=
  match aboveTheFold site.libraries tree site.probe site.templatesDir registry with
  | .error e => .error (.probe e)
  | .ok (critical, probeEvents) => do
      let pages ← race.collect (files.map (page (site.pageContext tree registry critical)))
      match siteStylesheet site.libraries registry critical pages site.settings.css.minify with
      | .error e => .error (.stylesheet e)
      | .ok css =>
          .ok (⟨pages, css, critical⟩, probeEvents ++ pages.flatMap fun built =>
            sizeEvents site.settings.css built.relativePath built.criticalCssSize)

/-- Compiles a site with the candidates of a registry. -/
def compileWith (race : Race) (tree : FileTree) (site : SiteContext) (registry : Registry) :
    Except BuildError (BuildResult × List Event) :=
  match PageFile.scan tree site.pagesDir with
  | .error e => .error (.scan e)
  -- Without pages the probe is not even looked at.
  | .ok [] => .ok (.empty, [.noPages site.pagesDir])
  | .ok files => do
      let (result, events) ← compilePages race tree site registry files
      .ok (result, .pagesFound files.length :: events)

/-- What a check of a site finds: its candidates, what a build would produce, and the reports. -/
structure Checked where
  registry : Registry
  result : BuildResult
  events : List Event

/-- Compiles a site and writes nothing. -/
def compile (race : Race) (tree : FileTree) (site : SiteContext) : Except BuildError Checked := do
  let (registry, loadEvents) := Candidate.load tree site.candidatesDir
  let (result, events) ← compileWith race tree site registry
  .ok ⟨registry, result, loadEvents ++ events⟩

/-- Compiles a site and writes it out. -/
def run (race : Race) (tree : FileTree) (site : SiteContext) :
    FileTree × Except BuildError (BuildResult × List Event) :=
  match compile race tree site with
  | .error e => (tree, .error e)
  | .ok checked =>
      if checked.result.pages.isEmpty then (tree, .ok (checked.result, checked.events))
      else
        match checked.result.emit tree site.paths.outDir site.paths.cacheDir with
        | (written, .error e) => (written, .error (.emit e))
        | (written, .ok ()) =>
            (written, .ok (checked.result,
              checked.events ++ [.buildComplete checked.result.pages.length site.paths.outDir]))

end SiteCompiler.Build
