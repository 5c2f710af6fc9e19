import SiteCompiler.Build.Event
import SiteCompiler.Candidate.Registry
import SiteCompiler.FileTree.Walk
set_option autoImplicit false

/-! # Reading the candidates directory

Below the candidates directory there is a directory for each layer, and in it a directory for each
candidate, which holds `critical.css`, `non-critical.css` or both. A candidate without a readable
fragment is not registered; a fragment that is there but cannot be read is reported. Layers are
read in cascade order, so of two candidates with one name the later layer wins, which is reported
too.
-/

namespace SiteCompiler.Candidate

/-- The file with what is needed above the fold. -/
def criticalFile : String := "critical.css"

/-- The file with everything else. -/
def nonCriticalFile : String := "non-critical.css"

/-- A fragment file, if it can be read. That it does not exist is not worth a report. -/
def readFragment (tree : FileTree) (path : Path) : Option String × List Event :=
  match tree.readText path with
  | .ok css => (some css, [])
  | .error .notFound => (none, [])
  | .error _ => (none, [.unreadableFragment path])

/-- The candidate of a name in a directory, if it has a fragment. -/
def read (tree : FileTree) (layer : Layer) (name : String) (dir : Path) :
    Option Candidate × List Event :=
  let critical := readFragment tree (dir.join criticalFile)
  let nonCritical := readFragment tree (dir.join nonCriticalFile)
  let events := critical.2 ++ nonCritical.2
  if critical.1.isNone && nonCritical.1.isNone then (none, events)
  else (some ⟨name, layer, critical.1, nonCritical.1⟩, events)

/-- The names of the directories in a directory, links to directories included, sorted. -/
def directoryNames (tree : FileTree) (dir : Path) : List OsText :=
  match tree.locate dir with
  | .error _ => []
  | .ok loc => (tree.names loc).filter fun name => tree.isDirectory (dir.join name)

/-- The candidates in the directory of a layer, sorted by their directories. A candidate is called
what its directory is called for a reader. -/
def readLayer (tree : FileTree) (dir : Path) (layer : Layer) : List Candidate × List Event :=
  let found := (directoryNames tree dir).map fun folder =>
    read tree layer folder.text (dir.join folder)
  (found.filterMap (·.1), found.flatMap (·.2))

/-- Registers a candidate and reports it if its name was taken. -/
def register (state : Registry × List Event) (candidate : Candidate) : Registry × List Event :=
  let registry := state.1.insert candidate
  match state.1.get? candidate.name with
  | some previous =>
      (registry, state.2 ++ [.nameTaken candidate.name previous.layer candidate.layer])
  | none => (registry, state.2)

/-- Reads one layer on top of what is registered. -/
def loadLayer (tree : FileTree) (candidatesDir : Path) (state : Registry × List Event)
    (layer : Layer) : Registry × List Event :=
  let found := readLayer tree (candidatesDir.join layer.name) layer
  found.1.foldl register (state.1, state.2 ++ found.2)

/-- The registry of a candidates directory, with what there is to report. -/
def load (tree : FileTree) (candidatesDir : Path) : Registry × List Event :=
  Layer.all.foldl (loadLayer tree candidatesDir) (Registry.empty, [])

end SiteCompiler.Candidate
