import SiteCompiler.FileTree.Walk
set_option autoImplicit false

/-! # Listing what is below a directory

A listing names every file and link below a directory by its path from there, and every directory
that holds nothing, which is written with a trailing separator. It is sorted by path.
-/

namespace SiteCompiler.FileTree

/-- The path of `loc` seen from `dir`, if it lies below it, for a reader. -/
def relativePath? (dir loc : Location) : Option String :=
  match dir.isPrefixOf? loc with
  | some (name :: rest) => some (String.intercalate "/" ((name :: rest).map OsText.text))
  | _ => none

/-- What a listing says of one entry: nothing of a directory that is not empty. -/
def listingLine? (tree : FileTree) (dir loc : Location) (entry : Entry) :
    Option (String × Entry) :=
  match relativePath? dir loc, entry with
  | none, _ => none
  | some path, .directory =>
      if (tree.names loc).isEmpty then some (path ++ "/", .directory) else none
  | some path, entry => some (path, entry)

/-- All files, links and empty directories below a directory, sorted by path. -/
def listing (tree : FileTree) (dir : Location) : List (String × Entry) :=
  (tree.entries.filterMap fun e => listingLine? tree dir e.1 e.2).mergeSort
    fun a b => a.1 ≤ b.1

/-- The listing of the directory that a path names. -/
def listing? (tree : FileTree) (p : Path) : Option (List (String × Entry)) :=
  match tree.locate p with
  | .ok loc => if tree.entry? loc = some .directory then some (tree.listing loc) else none
  | .error _ => none

end SiteCompiler.FileTree
