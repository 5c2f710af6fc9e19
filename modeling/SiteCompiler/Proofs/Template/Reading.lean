import SiteCompiler.Proofs.FileTree.Walk
import SiteCompiler.Proofs.Template.Depth
set_option autoImplicit false

/-! # The templates on the way

An expansion reads the template of every component that it enters. `Reads` says which ones these
are, on all levels, up to the component that it stops at. All of them are texts of the tree
(`Reads.mem_texts`), and which text it is depends on the name of the component alone, unless the
element names its template by itself (`load_eq_of_componentName`).
-/

namespace SiteCompiler.Template

open Component

/-- A component whose element says by itself which template it stands for. -/
def NamesTemplate (ref : ComponentRef) : Prop :=
  ∃ value, ref.attributes.lookup sourceAttribute = some value ∧ value ≠ ""

section Reading

variable (tree : FileTree) (templatesDir : Path)

/-- The expansion of a document below a chain fills in all segments up to a component, may enter
it, and loads its template. -/
def Enters (depth : Nat) (chain : List String) (html : String) (ref : ComponentRef)
    (template : String) : Prop :=
  ∃ before source after parts, segments html = before ++ .component ref source :: after ∧
    before.mapM (fillSegment tree templatesDir (enterUnlessIn chain) fun ref template =>
      expandWithin tree templatesDir depth (chain ++ [ref.componentName]) template) = .ok parts ∧
    enterUnlessIn chain ref = .ok () ∧ load tree templatesDir ref = .ok template

/-- The templates that the expansion of a document reads, on whatever level. -/
inductive Reads : Nat → List String → String → String → Prop
  | here {depth : Nat} {chain : List String} {html template : String} {ref : ComponentRef} :
      Enters tree templatesDir depth chain html ref template →
      Reads (depth + 1) chain html template
  | inside {depth : Nat} {chain : List String} {html template inner : String} {ref : ComponentRef} :
      Enters tree templatesDir depth chain html ref template →
      Reads depth (chain ++ [ref.componentName]) template inner →
      Reads (depth + 1) chain html inner

end Reading

variable {tree : FileTree} {templatesDir : Path}

theorem Reads.mem_texts {depth : Nat} {chain : List String} {html template : String}
    (h : Reads tree templatesDir depth chain html template) : template ∈ tree.texts := by
  induction h with
  | here henters =>
      obtain ⟨-, -, -, -, -, -, -, hload⟩ := henters
      exact load_mem_texts hload
  | inside _ _ ih => exact ih

/-! ## One template for every name -/

theorem filter_lookup_eq_none {ref : ComponentRef} (h : ¬ NamesTemplate ref) :
    (ref.attributes.lookup sourceAttribute).filter (· ≠ "") = none := by
  rw [Option.filter_eq_none_iff]
  intro value hvalue hne
  exact h ⟨value, hvalue, of_decide_eq_true hne⟩

/-- A component that does not name its template has the one that belongs to its name. -/
theorem load_eq_of_componentName {ref ref' : ComponentRef}
    (hname : ref.componentName = ref'.componentName) (href : ¬ NamesTemplate ref)
    (href' : ¬ NamesTemplate ref') : load tree templatesDir ref = load tree templatesDir ref' := by
  rw [load, load, resolve, resolve, filter_lookup_eq_none href, filter_lookup_eq_none href', hname]

theorem load_of_locate {ref : ComponentRef} (href : ¬ NamesTemplate ref) {loc : Location}
    {template : String} (hlocate : tree.locate (path templatesDir ref.componentName) = .ok loc)
    (hentry : tree.entry? loc = some (.file template.toUTF8)) :
    load tree templatesDir ref = .ok template := by
  have hexists : tree.pathExists (path templatesDir ref.componentName) = true := by
    rw [FileTree.pathExists, FileTree.find?_of_locate hlocate, hentry]
    rfl
  have hresolve : resolve tree templatesDir ref.componentName
      (ref.attributes.lookup sourceAttribute) = .ok (path templatesDir ref.componentName) := by
    rw [resolve, filter_lookup_eq_none href]
    exact if_pos hexists
  simp only [load, hresolve, FileTree.readText_of_locate hlocate hentry]

end SiteCompiler.Template
