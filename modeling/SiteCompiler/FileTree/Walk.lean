import SiteCompiler.FileTree
set_option autoImplicit false

/-! # What a path names

A path is walked from the root, one name at a time. `.` stays, `..` goes up, a link is replaced by
the path it points to (relative to the directory it stands in), and only a directory can be walked
through: `a/../b` names nothing when `a` is missing or is a file. At most forty links are followed
on the way, so a ring of links ends in an error.
-/

namespace SiteCompiler

/-- Why a path could not be used. -/
inductive FileError where
  | notFound
  | notADirectory
  | isADirectory
  | alreadyExists
  | tooManyLinks
  | nameTooLong
  | notText
  deriving DecidableEq, Repr

/-- The wording of a failure, as the operating system and the text decoder give it. -/
def FileError.message : FileError → String
  | .notFound => "No such file or directory (os error 2)"
  | .notADirectory => "Not a directory (os error 20)"
  | .isADirectory => "Is a directory (os error 21)"
  | .alreadyExists => "File exists (os error 17)"
  | .tooManyLinks => "Too many levels of symbolic links (os error 40)"
  | .nameTooLong => "File name too long (os error 36)"
  | .notText => "stream did not contain valid UTF-8"

namespace FileTree

/-- The number of links that one walk follows. -/
def linkLimit : Nat := 40

/-- The number of bytes that a file name may have. -/
def nameLimit : Nat := 255

/-- Whether no file can have this name, though it fits in length. -/
def isUnnameable (name : OsText) : Bool := name.bytes.contains 0

/-- Walks names from the location `here` and gives the location it ends at. Behind a link `follow`
goes on, from where the link's target starts and with all names that are still to come. -/
def walkVia (tree : FileTree) (follow : Location → List OsText → Except FileError Location)
    (here : Location) : List OsText → Except FileError Location
  | [] => .ok here
  | name :: rest =>
      if name = "." then walkVia tree follow here rest
      else if name = ".." then walkVia tree follow here.dropLast rest
      else if nameLimit < name.size then .error .nameTooLong
      else if isUnnameable name then .error .notFound
      else
        match tree.entry? (here ++ [name]) with
        | none => .error .notFound
        | some .directory => walkVia tree follow (here ++ [name]) rest
        | some (.file _) =>
            if rest = [] then .ok (here ++ [name]) else .error .notADirectory
        | some (.link target) =>
            follow (if Path.startsAtRoot target then [] else here)
              ((Path.mk target).segments ++ rest)

/-- Walks names from a location; at most `links` links are followed. -/
def walk (tree : FileTree) : Nat → Location → List OsText → Except FileError Location
  | 0 => tree.walkVia fun _ _ => .error .tooManyLinks
  | links + 1 => tree.walkVia (walk tree links)

/-- The location that a path names, all links followed. -/
def locate (tree : FileTree) (p : Path) : Except FileError Location :=
  if p.raw.isEmpty then .error .notFound else tree.walk linkLimit [] p.segments

/-- The entry that a path names, all links followed. -/
def find? (tree : FileTree) (p : Path) : Option Entry :=
  match tree.locate p with
  | .ok loc => tree.entry? loc
  | .error _ => none

/-- Whether a path names something. -/
def pathExists (tree : FileTree) (p : Path) : Bool := (tree.find? p).isSome

/-- Whether a path names a directory. -/
def isDirectory (tree : FileTree) (p : Path) : Bool := tree.find? p == some .directory

/-- The bytes of the file that a path names. -/
def readBytes (tree : FileTree) (p : Path) : Except FileError ByteArray := do
  match tree.entry? (← tree.locate p) with
  | some (.file bytes) => .ok bytes
  | some .directory => .error .isADirectory
  | _ => .error .notFound

/-- The text of the file that a path names. -/
def readText (tree : FileTree) (p : Path) : Except FileError String := do
  match String.fromUTF8? (← tree.readBytes p) with
  | some text => .ok text
  | none => .error .notText

/-- The absolute path of a location. -/
def pathOf (loc : Location) : Path := ⟨Path.slash ++ OsText.intercalate Path.slash loc⟩

end FileTree

end SiteCompiler
