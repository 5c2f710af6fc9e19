import SiteCompiler.CommandLine.Run
import SiteCompiler.Library.StandIn
set_option autoImplicit false

/-! # The program

Reads the files below the working directory and below the directories that the arguments name, runs
the command on them and writes what has changed. What is printed and written is decided by
`CommandLine.run`. Names of files pass through texts here, so only those in UTF-8 can be reached.
-/

namespace SiteCompiler.CommandLine

/-- The directories that a run can read or write, the working directory first. -/
def directories (cwd : Path) (arguments : List String) : List Path :=
  match Request.ofArguments? arguments with
  | some (.run choice _) =>
      cwd :: [choice.srcRoot, choice.outDir, choice.cacheDir].filterMap fun dir =>
        dir.map fun dir => cwd.join dir
  | _ => []

/-- The directories from the root down to a location. -/
def way (loc : Location) : List (Location × Entry) :=
  (List.range loc.length).map fun n => (loc.take (n + 1), .directory)

/-- Adds entries to a tree; of two entries with one location the first stays. -/
def addEntries (tree : FileTree) (entries : List (Location × Entry)) : FileTree :=
  entries.foldl (fun tree e => if (tree.entry? e.1).isSome then tree else tree.put e.1 e.2) tree

/-- What has changed from one tree to another. -/
def changes (before after : FileTree) : List (Location × Entry) :=
  after.entries.filter fun e => before.entry? e.1 ≠ some e.2

/-- The entries below a directory. Links are kept as links to where they lead. -/
partial def entriesBelow (dir : IO.FS.DirEntry) (loc : Location) : IO (List (Location × Entry)) := do
  let mut entries := []
  for entry in ← dir.path.readDir do
    let here := loc ++ [OsText.ofText entry.fileName]
    match (← entry.path.symlinkMetadata).type with
    | .dir => entries := entries ++ (here, .directory) :: (← entriesBelow entry here)
    | .file => entries := entries ++ [(here, .file (← IO.FS.readBinFile entry.path))]
    | .symlink =>
        if ← entry.path.pathExists then
          let target ← IO.FS.realPath entry.path
          entries := entries ++ [(here, .link target.toString)]
        else entries := entries ++ [(here, .link entry.fileName)]
    | .other => pure ()
  return entries

/-- The files that a run can read, as a tree. -/
def readTree (dirs : List Path) : IO FileTree := do
  let mut tree := FileTree.empty
  for dir in dirs do
    let entry : IO.FS.DirEntry := ⟨dir.text, "."⟩
    if ← entry.root.isDir then
      let real ← IO.FS.realPath dir.text
      let loc := (Path.pieces real.toString).filter fun name : OsText => name ≠ ""
      tree := addEntries tree (way loc ++ (← entriesBelow entry loc))
  return tree

/-- Writes a changed entry. -/
def writeEntry (entry : Location × Entry) : IO Unit := do
  let path := (FileTree.pathOf entry.1).text
  match entry.2 with
  | .file bytes => IO.FS.writeBinFile path bytes
  | .directory => IO.FS.createDirAll path
  | .link _ => pure ()

/-- An event as a line. -/
def eventLine (event : Event) : String :=
  let level := match event.level with
    | .info => "INFO"
    | .warn => "WARN"
  let fields := event.fields.map fun field =>
    field.1 ++ "=" ++ match field.2 with
      | .number n => toString n
      | .text s => s
  String.intercalate " " (level :: event.message :: fields)

end SiteCompiler.CommandLine

open SiteCompiler in
/-- Runs the program. -/
def main (arguments : List String) : IO UInt32 := do
  let cwd : Path := ⟨(← IO.currentDir).toString⟩
  let tree ← CommandLine.readTree (CommandLine.directories cwd arguments)
  let outcome := CommandLine.run .standIn .inOrder tree cwd arguments
  for entry in CommandLine.changes tree outcome.tree do
    CommandLine.writeEntry entry
  IO.print outcome.output
  for event in outcome.events do
    IO.eprintln (CommandLine.eventLine event)
  if let some error := outcome.error then
    IO.eprintln error
  return outcome.status.toUInt32
