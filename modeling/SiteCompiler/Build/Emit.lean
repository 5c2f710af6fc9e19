import SiteCompiler.Build.Manifest
import SiteCompiler.FileTree.Change
set_option autoImplicit false

/-! # Writing a site out

A site is written in steps: the output directory, each page with the directories above it, the
stylesheet if there is one, and the manifest. The first step that fails ends the writing; what was
written before it stays.
-/

namespace SiteCompiler

/-- One step of writing. -/
inductive WriteStep where
  | makeDirectories (dir : Path)
  | write (path : Path) (text : String)
  deriving DecidableEq, Repr

namespace FileTree

/-- Takes one step. What a failed step has changed stays. -/
def apply (tree : FileTree) : WriteStep → FileTree × Except FileError Unit
  | .makeDirectories dir => tree.makeDirectories dir
  | .write path text =>
      match tree.writeText path text with
      | .ok written => (written, .ok ())
      | .error e => (tree, .error e)

/-- Takes steps up to the first that fails. -/
def applyAll (tree : FileTree) : List WriteStep → FileTree × Except FileError Unit
  | [] => (tree, .ok ())
  | step :: rest =>
      match tree.apply step with
      | (tree, .ok ()) => tree.applyAll rest
      | (tree, .error e) => (tree, .error e)

end FileTree

namespace BuildResult

/-- Where a page is written. -/
def outputPath (outDir : Path) (relativePath : String) : Path :=
  outDir.joinAll (Path.pieces relativePath)

/-- The steps that write a page. -/
def pageSteps (outDir : Path) (page : BuiltPage) : List WriteStep :=
  let path := outputPath outDir page.relativePath
  (path.parent?.map WriteStep.makeDirectories).toList ++ [.write path page.html]

/-- The steps that write a site. -/
def steps (result : BuildResult) (outDir cacheDir : Path) : List WriteStep :=
  .makeDirectories outDir :: result.pages.flatMap (pageSteps outDir)
    ++ (if result.hasStylesheet then
          [.write (outDir.join Page.stylesheetName) result.nonCriticalCss]
        else [])
    ++ [.makeDirectories cacheDir, .write (cacheDir.join Manifest.fileName) (Manifest.text result)]

/-- Writes a site out. -/
def emit (tree : FileTree) (result : BuildResult) (outDir cacheDir : Path) :
    FileTree × Except FileError Unit :=
  tree.applyAll (result.steps outDir cacheDir)

end BuildResult

end SiteCompiler
