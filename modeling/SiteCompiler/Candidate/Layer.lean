set_option autoImplicit false

/-! # Cascade layers

Every candidate belongs to one of four cascade layers. Their order is the order in which a later
layer overrides an earlier one. A `Chunks` value holds a list of CSS texts for each layer.
-/

namespace SiteCompiler

/-- A cascade layer, from the lowest precedence up. -/
inductive Layer where
  | global
  | layout
  | components
  | utils
  deriving DecidableEq, Repr

namespace Layer

/-- The layers in cascade order. -/
def all : List Layer := [global, layout, components, utils]

/-- The name of a layer, in CSS and as a directory. -/
def name : Layer → String
  | global => "global"
  | layout => "layout"
  | components => "components"
  | utils => "utils"

/-- The layer with a given name. -/
def ofName? (s : String) : Option Layer := all.find? fun layer => layer.name == s

theorem mem_all (layer : Layer) : layer ∈ all := by cases layer <;> decide

end Layer

/-- CSS texts by layer, in order within each layer. -/
abbrev Chunks := Layer → List String

end SiteCompiler
