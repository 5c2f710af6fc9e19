import SiteCompiler.Candidate.Registry
set_option autoImplicit false

/-! # Collecting the CSS of candidates

The fragments of the candidates that a page uses are gathered by layer, critical and non-critical
ones apart. Then the critical chunks are *split*: only those stay critical whose candidate is used
above the fold, and the rest goes in front of the non-critical chunks. A chunk is its text alone,
so its candidate is the first registered one that has exactly this text as its critical fragment
in this layer.
-/

namespace SiteCompiler

/-- CSS texts by layer, critical and non-critical. -/
structure CollectedCss where
  critical : Chunks
  nonCritical : Chunks

namespace CollectedCss

/-- The non-empty fragments of one kind of the named candidates, by layer, in the order of the
names. Names that are not registered are passed over. -/
def fragments (registry : Registry) (fragment : Candidate → Option String) (used : List String) :
    Chunks := fun layer =>
  ((used.filterMap registry.get?).filter fun c => c.layer == layer).filterMap fun c =>
    (fragment c).filter (· ≠ "")

/-- The CSS of the named candidates. -/
def collect (registry : Registry) (used : List String) : CollectedCss where
  critical := fragments registry Candidate.criticalCss used
  nonCritical := fragments registry Candidate.nonCriticalCss used

/-- Whether a critical chunk belongs to a candidate that is used above the fold. -/
def staysCritical (registry : Registry) (aboveTheFold : List String) (layer : Layer)
    (chunk : String) : Bool :=
  match registry.criticalOwner? layer chunk with
  | some owner => aboveTheFold.contains owner
  | none => false

/-- Keeps critical what is needed above the fold and puts the other critical chunks in front of
the non-critical ones. -/
def split (registry : Registry) (aboveTheFold : List String) (css : CollectedCss) :
    CollectedCss where
  critical := fun layer => (css.critical layer).filter (staysCritical registry aboveTheFold layer)
  nonCritical := fun layer =>
    (css.critical layer).filter (fun chunk => !staysCritical registry aboveTheFold layer chunk)
      ++ css.nonCritical layer

/-- In each layer, every collected chunk is on exactly one side of the split. -/
theorem split_perm (registry : Registry) (aboveTheFold : List String) (css : CollectedCss)
    (layer : Layer) :
    ((css.split registry aboveTheFold).critical layer
      ++ (css.split registry aboveTheFold).nonCritical layer).Perm
        (css.critical layer ++ css.nonCritical layer) := by
  simp only [split, ← List.append_assoc]
  exact (List.filter_append_perm _ _).append_right _

end CollectedCss

end SiteCompiler
