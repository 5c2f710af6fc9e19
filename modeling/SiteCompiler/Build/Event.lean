import SiteCompiler.Candidate.Layer
import SiteCompiler.Path
set_option autoImplicit false

/-! # What a build reports as it goes

Each event is a value; its level, its wording and its fields are read off it. Information is for
the record, a warning means that something in the site may not be as intended.
-/

namespace SiteCompiler

/-- How much attention an event asks for. -/
inductive Level where
  | info
  | warn
  deriving DecidableEq, Repr

/-- Something that a build reports. -/
inductive Event where
  | unreadableFragment (path : Path)
  | nameTaken (candidate : String) (replaced layer : Layer)
  | unreadableProbe (path : Path)
  | noPages (dir : Path)
  | pagesFound (count : Nat)
  | criticalCssLarge (page : String) (size limit : Nat)
  | criticalCssNoticed (page : String) (size limit : Nat)
  | buildComplete (pages : Nat) (outDir : Path)
  deriving DecidableEq, Repr

/-- The value of a field of an event. -/
inductive FieldValue where
  | number (n : Nat)
  | text (s : String)
  deriving DecidableEq, Repr

namespace Event

/-- The level of an event. -/
def level : Event → Level
  | unreadableFragment _ => .warn
  | nameTaken _ _ _ => .warn
  | unreadableProbe _ => .warn
  | noPages _ => .warn
  | pagesFound _ => .info
  | criticalCssLarge _ _ _ => .warn
  | criticalCssNoticed _ _ _ => .info
  | buildComplete _ _ => .info

/-- The wording of an event. -/
def message : Event → String
  | unreadableFragment _ => "skipping unreadable candidate fragment"
  | nameTaken _ _ _ =>
      "candidate name defined in more than one layer; the later layer wins"
  | unreadableProbe _ =>
      "above-the-fold probe not readable; no CSS will be inlined as critical"
  | noPages _ => "no pages found"
  | pagesFound _ => "found pages"
  | criticalCssLarge _ _ _ =>
      "critical CSS is large; consider trimming the above-the-fold set"
  | criticalCssNoticed _ _ _ => "critical CSS above notice threshold"
  | buildComplete _ _ => "build complete"

/-- The particulars of an event, by name. -/
def fields : Event → List (String × FieldValue)
  | unreadableFragment path => [("path", .text path.text)]
  | nameTaken candidate replaced layer =>
      [("candidate", .text candidate), ("replaced_layer", .text replaced.name),
        ("layer", .text layer.name)]
  | unreadableProbe path => [("path", .text path.text)]
  | noPages dir => [("dir", .text dir.text)]
  | pagesFound count => [("count", .number count)]
  | criticalCssLarge page size limit =>
      [("page", .text page), ("size", .number size), ("limit", .number limit)]
  | criticalCssNoticed page size limit =>
      [("page", .text page), ("size", .number size), ("limit", .number limit)]
  | buildComplete pages outDir => [("pages", .number pages), ("out_dir", .text outDir.text)]

end Event

end SiteCompiler
