import SiteCompiler.FileTree.Walk
import SiteCompiler.Template.Path
set_option autoImplicit false

/-! # Finding the pages of a site

Every file with the extension of markup below the pages directory is a page, also one that is
reached through a link. A link that leads nowhere, or to a directory that is being searched, ends
the search with an error, whatever else is there. Pages are sorted by their path from the pages
directory as a reader sees it. Pages whose paths look the same to a reader, because they are not
UTF-8, stay in the order in which they were found, which is that in which the directories give
their names.
-/

namespace SiteCompiler

/-- The file of a page. -/
structure PageFile where
  /-- The path from the pages directory, separated by slashes, for a reader. -/
  relativePath : String
  /-- The path to read the page from. -/
  path : Path
  deriving DecidableEq, Repr

/-- Why the pages could not be found. -/
inductive ScanError where
  | notFound (dir : Path)
  | badLink (path : Path)
  deriving DecidableEq, Repr

/-- The wording of the error. -/
def ScanError.message : ScanError → String
  | .notFound dir => "Pages directory not found: " ++ dir.text
  | .badLink path => "Failed to walk pages directory: link cannot be followed: " ++ path.text

namespace PageFile

/-- Whether a file of this name is a page. -/
def isPageName (name : OsText) : Bool := Path.extension? name == some (markupExtension : OsText)

/-- Names as a path for a reader. -/
def readable (names : List OsText) : String := String.intercalate "/" (names.map OsText.text)

/-- The page that a file below `dir` is, if its name is that of a page. -/
def ofNames (dir : Path) (names : List OsText) : List PageFile :=
  if isPageName (names.getLast?.getD "") then [⟨readable names, dir.joinAll names⟩] else []

/-- What is found at a name in a directory, links followed. A link may not lead to one of the
directories `around`, in which the search already is. -/
def follow (tree : FileTree) (dir : Path) (around : List Location) (here : Location)
    (names : List OsText) (name : OsText) : Except ScanError Location :=
  match tree.entry? (here ++ [name]) with
  | some (.link _) =>
      -- The links on the way to this one count as well.
      match tree.locate (dir.joinAll names) with
      | .error _ => .error (.badLink (dir.joinAll names))
      | .ok loc =>
          -- Only a directory can lead back to where the search has come from.
          if tree.entry? loc == some .directory && around.contains loc then
            .error (.badLink (dir.joinAll names))
          else .ok loc
  | _ => .ok (here ++ [name])

/-- The pages in the directory at `here`, which is reached from `dir` by the names `above`, and in
the directories below it, at most `depth` levels deep. A directory gives its names in the order of
`listed`. -/
def below (tree : FileTree) (listed : Location → List OsText) (dir : Path) :
    Nat → List Location → List OsText → Location → Except ScanError (List PageFile)
  | 0, _, above, _ => .error (.badLink (dir.joinAll above))
  | depth + 1, around, above, here => do
      let found ← (listed here).mapM fun name => do
        let names := above ++ [name]
        let loc ← follow tree dir around here names name
        match tree.entry? loc with
        | some .directory => below tree listed dir depth (loc :: around) names loc
        | some (.file _) => .ok (ofNames dir names)
        | _ => .ok []
      .ok found.flatten

/-- More levels than a search can go down: links are followed to new directories only, and from
each of them the way down is no longer than the tree is large. -/
def depthBound (tree : FileTree) : Nat := (tree.entries.length + 2) * (tree.entries.length + 2)

/-- The pages of a site, sorted by their path from the pages directory, where a directory gives its
names in the order of `listed`. -/
def scanAs (tree : FileTree) (listed : Location → List OsText) (dir : Path) :
    Except ScanError (List PageFile) :=
  match tree.locate dir with
  | .error _ => .error (.notFound dir)
  | .ok here =>
      if tree.entry? here = some .directory then do
        let pages ← below tree listed dir (depthBound tree) [here] [] here
        .ok (pages.mergeSort fun a b => a.relativePath ≤ b.relativePath)
      else .error (.notFound dir)

/-- The pages of a site, sorted by their path from the pages directory. -/
def scan (tree : FileTree) (dir : Path) : Except ScanError (List PageFile) :=
  scanAs tree tree.names dir

end PageFile

end SiteCompiler
