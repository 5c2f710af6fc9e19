import SiteCompiler.Component.Element
import SiteCompiler.Template.Path
set_option autoImplicit false

/-! # Expanding components

Each outermost component element of a document is replaced by the contents of its template,
expanded in turn; the text between stays as it is and the children of a component element are
dropped. A component may appear any number of times, only not inside its own expansion: the names
of the components being expanded are carried along, and meeting one of them again is an error.

Every level of the recursion adds a new name to that chain, and each name takes up characters of
the document or of a file of the tree. So the recursion is never deeper than the tree is large,
which is the depth that `compile` starts it with.
-/

namespace SiteCompiler.Template

open Component

/-- Why a document could not be expanded. -/
inductive CompileError where
  | unresolved (error : ResolveError)
  /-- The component and the chain of components, from the outermost down, in which it is met
  again. -/
  | circular (component : String) (chain : List String)
  | unreadable (path : Path) (error : FileError)
  /-- Components are nested deeper than the given depth. -/
  | tooDeep
  deriving DecidableEq, Repr

/-- The wording of the error. -/
def CompileError.message : CompileError → String
  | .unresolved error => error.message
  | .circular component chain =>
      "Circular component reference detected: " ++ component ++ " (chain: "
        ++ String.intercalate " -> " chain ++ " -> " ++ component ++ ")"
  | .unreadable path error => "Failed to read template " ++ path.text ++ ": " ++ error.message
  | .tooDeep => "Components are nested too deeply"

/-- The path and the contents of the template of a component. -/
def load (tree : FileTree) (templatesDir : Path) (ref : ComponentRef) :
    Except CompileError String :=
  match resolve tree templatesDir ref.componentName (ref.attributes.lookup sourceAttribute) with
  | .error e => .error (.unresolved e)
  | .ok path =>
      match tree.readText path with
      | .error e => .error (.unreadable path e)
      | .ok text => .ok text

/-- Expands a document below the components of `chain`, at most `depth` levels deep. -/
def expandWithin (tree : FileTree) (templatesDir : Path) :
    Nat → List String → String → Except CompileError String
  | 0, _, _ => .error .tooDeep
  | depth + 1, chain, html => do
      let parts ← (segments html).mapM fun
        | .text source => .ok (String.ofList source)
        | .component ref _ =>
            if chain.contains ref.componentName then
              .error (.circular ref.componentName chain)
            else do
              let template ← load tree templatesDir ref
              expandWithin tree templatesDir depth (chain ++ [ref.componentName]) template
      return String.join parts

/-- A depth that no expansion of the document reaches. -/
def depthBound (tree : FileTree) (html : String) : Nat := html.utf8ByteSize + tree.totalBytes + 1

/-- The document with all its components expanded. -/
def compile (tree : FileTree) (templatesDir : Path) (html : String) :
    Except CompileError String :=
  expandWithin tree templatesDir (depthBound tree html) [] html

end SiteCompiler.Template
