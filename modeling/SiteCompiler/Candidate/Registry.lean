import SiteCompiler.Candidate.Layer
set_option autoImplicit false

/-! # Candidates and their registry

A candidate is a named pair of CSS fragments in a layer. The registry keeps candidates in the order
in which their names were first registered; registering a name again replaces the definition where
it stands.
-/

namespace SiteCompiler

/-- A named pair of CSS fragments in a layer. -/
structure Candidate where
  name : String
  layer : Layer
  criticalCss : Option String
  nonCriticalCss : Option String
  deriving DecidableEq, Repr

/-- The candidates of a build, each name once, in order of first registration. -/
structure Registry where
  candidates : List Candidate

namespace Registry

/-- The registry without candidates. -/
def empty : Registry := ⟨[]⟩

/-- The candidate of a name. -/
def get? (registry : Registry) (name : String) : Option Candidate :=
  registry.candidates.find? fun c => c.name == name

/-- Whether a name is registered. -/
def contains (registry : Registry) (name : String) : Bool :=
  registry.candidates.any fun c => c.name == name

/-- The number of candidates. -/
def size (registry : Registry) : Nat := registry.candidates.length

/-- The names in order. -/
def names (registry : Registry) : List String := registry.candidates.map Candidate.name

/-- Registers a candidate, in place of the one that had its name. -/
def insert (registry : Registry) (candidate : Candidate) : Registry :=
  if registry.contains candidate.name then
    ⟨registry.candidates.map fun c => if c.name = candidate.name then candidate else c⟩
  else
    ⟨registry.candidates ++ [candidate]⟩

/-- Registers candidates one after another. -/
def ofList (candidates : List Candidate) : Registry := candidates.foldl insert empty

/-- The first candidate of a layer whose critical fragment is exactly `chunk`. -/
def criticalOwner? (registry : Registry) (layer : Layer) (chunk : String) : Option String :=
  (registry.candidates.find? fun c => c.layer == layer && c.criticalCss == some chunk).map
    Candidate.name

end Registry

end SiteCompiler
