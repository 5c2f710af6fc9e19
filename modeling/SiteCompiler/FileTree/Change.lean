import SiteCompiler.FileTree.Walk
set_option autoImplicit false

/-! # Writing files and making directories

Both operations walk to the directory that the last name of the path stands in and change that
one place. Writing follows links, also a link to a file that does not exist yet; making a
directory does not, so anything that is already there, even a dangling link, is in the way.
-/

namespace SiteCompiler.FileTree

/-- The location of the directory in which the last of `names` would stand, and that last name. -/
def place (tree : FileTree) (links : Nat) (here : Location) (names : List OsText) :
    Except FileError (Location × OsText) := do
  match names.getLast? with
  | none => .error .isADirectory
  | some name =>
      let dir ← tree.walk links here names.dropLast
      if tree.entry? dir = some .directory then .ok (dir, name) else .error .notADirectory

/-- Whether a name stands for a place of its own in a directory. -/
def isOwnName (name : OsText) : Bool := name ≠ "." && name ≠ ".."

/-- Writes a file below `here`, following links. -/
def writeFrom (tree : FileTree) (links : Nat) (here : Location) (names : List OsText)
    (bytes : ByteArray) : Except FileError FileTree := do
  let (dir, name) ← tree.place links here names
  if !isOwnName name then .error .isADirectory
  else if nameLimit < name.size then .error .nameTooLong
  else if isUnnameable name then .error .notFound
  else
    let loc := dir ++ [name]
    match tree.entry? loc with
    | none => .ok (tree.put loc (.file bytes))
    | some (.file _) => .ok (tree.put loc (.file bytes))
    | some .directory => .error .isADirectory
    | some (.link target) =>
        match links with
        | 0 => .error .tooManyLinks
        | links + 1 =>
            writeFrom tree links (if Path.startsAtRoot target then [] else dir)
              (Path.mk target).segments bytes
termination_by links

/-- The names of a path whose last one is to be made: a trailing separator does not count. -/
def makingNames (p : Path) : List OsText :=
  if Path.endsWithSeparator p.raw then p.segments.dropLast else p.segments

/-- Gives the file at a path these bytes, making it if it is not there. A path with a trailing
separator can only stand for a directory. -/
def writeBytes (tree : FileTree) (p : Path) (bytes : ByteArray) : Except FileError FileTree :=
  if Path.endsWithSeparator p.raw then do
    let _ ← tree.place linkLimit [] (makingNames p)
    .error .isADirectory
  else
    tree.writeFrom linkLimit [] p.segments bytes

/-- Gives the file at a path this text. -/
def writeText (tree : FileTree) (p : Path) (text : String) : Except FileError FileTree :=
  tree.writeBytes p text.toUTF8

/-- Makes one directory in a directory that exists. -/
def makeDirectory (tree : FileTree) (p : Path) : Except FileError FileTree :=
  match makingNames p with
  | [] => .error .alreadyExists
  | names => do
      let (dir, name) ← tree.place linkLimit [] names
      if !isOwnName name then .error .alreadyExists
      else if nameLimit < name.size then .error .nameTooLong
      else if isUnnameable name then .error .notFound
      else if (tree.entry? (dir ++ [name])).isSome then .error .alreadyExists
      else .ok (tree.put (dir ++ [name]) .directory)

/-- Makes a directory, or keeps it if the path names one already. -/
def ensureDirectory (tree : FileTree) (p : Path) : Except FileError FileTree :=
  match tree.makeDirectory p with
  | .ok made => .ok made
  | .error e => if tree.isDirectory p then .ok tree else .error e

/-- Makes a directory and, where they are missing, the directories above it, at most `levels` of
them. What was made before a failure stays, so the tree is returned beside the outcome. -/
def makeDirectoriesWithin : Nat → FileTree → Path → FileTree × Except FileError Unit
  | 0, tree, _ => (tree, .error .notFound)
  | levels + 1, tree, p =>
      match tree.ensureDirectory p with
      | .ok made => (made, .ok ())
      -- The directory above is missing: it is made first, and then this one is tried again.
      | .error .notFound =>
          match p.parent? with
          | none => (tree, .error .notFound)
          | some above =>
              match makeDirectoriesWithin levels tree above with
              | (tree, .error e) => (tree, .error e)
              | (tree, .ok ()) =>
                  match tree.ensureDirectory p with
                  | .ok made => (made, .ok ())
                  | .error e => (tree, .error e)
      | .error e => (tree, .error e)

/-- Makes a directory with all directories above it. The empty path asks for nothing. -/
def makeDirectories (tree : FileTree) (p : Path) : FileTree × Except FileError Unit :=
  if p.raw.isEmpty then (tree, .ok ())
  else makeDirectoriesWithin (p.segments.length + 2) tree p

/-- Makes a link to `target` in a directory that exists. -/
def makeLink (tree : FileTree) (p : Path) (target : OsText) : Except FileError FileTree := do
  let (dir, name) ← tree.place linkLimit [] p.segments
  if (tree.entry? (dir ++ [name])).isSome then .error .alreadyExists
  else .ok (tree.put (dir ++ [name]) (.link target))

/-- Takes away what stands at a path, a directory with all that is below it. The last name is not
followed if it is a link. -/
def remove (tree : FileTree) (p : Path) : FileTree :=
  match tree.place linkLimit [] (makingNames p) with
  | .ok (dir, name) => tree.erase (dir ++ [name])
  | .error _ => tree

end SiteCompiler.FileTree
