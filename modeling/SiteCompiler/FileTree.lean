import SiteCompiler.Path
set_option autoImplicit false

/-! # File trees

A file tree is a finite map from *locations* (the names from the root down) to entries: files with
their bytes, directories, and symbolic links with the path they point to. The root is always a
directory. Nothing here follows links; `FileTree.Walk` says which location a path names.

Names are bytes and need not be UTF-8. Everything may be read and written, and there is no limit to
the size of a file or to the length of a path; a single name has one (`FileTree.nameLimit`). An
operating system that also limits paths (to 4096 bytes on Linux) refuses what is longer.
-/

namespace SiteCompiler

/-- Where an entry stands: the names from the root down to it. -/
abbrev Location := List OsText

/-- What can stand at a location. -/
inductive Entry where
  | file (bytes : ByteArray)
  | link (target : OsText)
  | directory
  deriving Inhabited

namespace Entry

/-- The number of bytes in an entry; only files have any. -/
def size : Entry → Nat
  | file bytes => bytes.size
  | _ => 0

instance : DecidableEq Entry
  | file a, file b =>
      match ByteArray.instDecidableEq a b with
      | isTrue h => isTrue (by rw [h])
      | isFalse h => isFalse (by intro heq; cases heq; exact h rfl)
  | link a, link b =>
      if h : a = b then isTrue (by rw [h]) else isFalse (by intro heq; cases heq; exact h rfl)
  | directory, directory => isTrue rfl
  | file _, link _ => isFalse nofun
  | file _, directory => isFalse nofun
  | link _, file _ => isFalse nofun
  | link _, directory => isFalse nofun
  | directory, file _ => isFalse nofun
  | directory, link _ => isFalse nofun

end Entry

/-- A finite file system. Of two entries with one location the first counts. -/
structure FileTree where
  entries : List (Location × Entry)
  deriving Inhabited

namespace FileTree

/-- The tree with nothing below its root. -/
def empty : FileTree := ⟨[]⟩

/-- The entry at a location; the root is a directory. -/
def entry? (tree : FileTree) (loc : Location) : Option Entry :=
  if loc = [] then some .directory else tree.entries.lookup loc

/-- Puts an entry at a location, in place of the one that was there. -/
def put (tree : FileTree) (loc : Location) (entry : Entry) : FileTree :=
  if tree.entries.any (fun e => e.1 == loc) then
    ⟨tree.entries.map fun e => if e.1 = loc then (loc, entry) else e⟩
  else
    ⟨tree.entries ++ [(loc, entry)]⟩

/-- Whether `loc` is `above` or lies below it. -/
def liesUnder (above loc : Location) : Bool := above.isPrefixOf loc

/-- Takes away a location and everything below it. -/
def erase (tree : FileTree) (loc : Location) : FileTree :=
  ⟨tree.entries.filter fun e => !liesUnder loc e.1⟩

/-- The name under which `loc` is a direct child of `above`, if it is one. -/
def childName? (above loc : Location) : Option OsText :=
  match above.isPrefixOf? loc with
  | some [name] => some name
  | _ => none

/-- The names in a directory, sorted. -/
def names (tree : FileTree) (dir : Location) : List OsText :=
  (tree.entries.filterMap fun e => childName? dir e.1).mergeSort (· ≤ ·)

/-- The number of bytes in all files together. -/
def totalBytes (tree : FileTree) : Nat :=
  tree.entries.foldr (fun e total => e.2.size + total) 0

end FileTree

end SiteCompiler
