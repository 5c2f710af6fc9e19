import SiteCompiler.OsText
set_option autoImplicit false

/-! # Paths

A path is its bytes: segments separated by `/`. Joining never normalises, so a path prints
exactly as it was put together (`a/../b`, `t//x`, a trailing `/`); what a path *names* is decided
by the file tree (`FileTree.Walk`). A path that begins with `/` is absolute, and joining it to a
directory gives the absolute path alone.
-/

namespace SiteCompiler

/-- A file path, kept as the bytes it was put together from. -/
structure Path where
  raw : OsText
  deriving DecidableEq, Repr, Inhabited

namespace Path

/-- The byte between two segments. -/
def separator : UInt8 := 0x2F

/-- The separator alone. -/
def slash : OsText := ⟨[separator]⟩

/-- The path for a reader. -/
def text (p : Path) : String := p.raw.text

/-- Whether the first byte is the separator. -/
def startsAtRoot (s : OsText) : Bool := s.bytes.head? == some separator

/-- Whether the last byte is the separator. -/
def endsWithSeparator (s : OsText) : Bool := s.bytes.getLast? == some separator

/-- The path of `s` below `p`: an absolute `s` stands alone, and a separator is put in between
unless there is one already or `p` is empty. Joining the empty text leaves a trailing separator. -/
def join (p : Path) (s : OsText) : Path :=
  if startsAtRoot s then ⟨s⟩
  else if p.raw.isEmpty || endsWithSeparator p.raw then ⟨p.raw ++ s⟩
  else ⟨p.raw ++ slash ++ s⟩

/-- The path reached by joining the parts one after another. -/
def joinAll (p : Path) (parts : List OsText) : Path := parts.foldl join p

/-- The pieces between separators, empty pieces included. -/
def pieces (s : OsText) : List OsText := (s.bytes.splitOn separator).map OsText.mk

/-- The names that a path goes through, in order. A trailing separator asks for a directory, as a
final `.` does. -/
def segments (p : Path) : List OsText :=
  let names := (pieces p.raw).filter fun s : OsText => s ≠ ""
  if endsWithSeparator p.raw then names ++ [OsText.ofText "."] else names

/-- The path one level up, if there is one: neither empty pieces nor `.` count as a level. -/
def parent? (p : Path) : Option Path :=
  match ((pieces p.raw).filter fun s : OsText => s ≠ "" && s ≠ ".").reverse with
  | [] => none
  | _ :: above =>
      let body := OsText.intercalate slash above.reverse
      some ⟨if startsAtRoot p.raw then slash ++ body else body⟩

/-- The byte in front of an extension. -/
def dot : UInt8 := 0x2E

/-- The extension of a file name: what follows its last dot, if something stands before it. -/
def extension? (name : OsText) : Option OsText :=
  let reversed := name.bytes.reverse
  match reversed.dropWhile (· ≠ dot) with
  | [] => none
  | [_] => none
  | _ :: _ => some ⟨(reversed.takeWhile (· ≠ dot)).reverse⟩

end Path

end SiteCompiler
