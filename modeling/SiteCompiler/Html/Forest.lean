set_option autoImplicit false

/-! # Elements under construction

While a document is read its elements are moved about: an element out of place in a table goes
before the table, misnested formatting is taken apart. So elements are kept in a forest, numbered
in the order in which they are made, each with the number of its parent and those of its children.
The contents of a `template` element hang below a number of their own. When all is read,
`Forest.nodes` gives the trees as plain nested values.

Only elements are kept: text and comments have a say in how elements are placed, but no place of
their own.
-/

namespace SiteCompiler.Html

/-- The vocabulary that an element belongs to. -/
inductive Vocabulary where
  | html
  | svg
  | mathml
  deriving DecidableEq, Repr, Inhabited

/-- What an element is: its vocabulary, its name in lower case and its attributes. -/
structure ElementKind where
  vocabulary : Vocabulary
  name : String
  attributes : List (String × String)
  deriving DecidableEq, Repr, Inhabited

/-- An element of a document that has been read. A `template` element keeps its contents apart from
its children. -/
inductive Node where
  | element (kind : ElementKind) (contents children : List Node)

/-- The number of an element in a forest. -/
abbrev ElementId := Nat

/-- An element with its place in the forest. -/
structure Placed where
  kind : ElementKind
  parent : Option ElementId
  children : List ElementId
  /-- The number below which the contents of a template stand. -/
  contents : Option ElementId
  deriving Inhabited

/-- Elements by number. -/
structure Forest where
  placed : Array Placed

namespace Forest

/-- The number of the document itself. -/
def document : ElementId := 0

/-- A document without elements. -/
def empty : Forest := ⟨#[⟨default, none, [], none⟩]⟩

/-- The kind of an element. -/
def kind (forest : Forest) (id : ElementId) : ElementKind :=
  (forest.placed[id]?.map (·.kind)).getD default

/-- The parent of an element. -/
def parent? (forest : Forest) (id : ElementId) : Option ElementId :=
  forest.placed[id]?.bind (·.parent)

/-- The children of an element. -/
def children (forest : Forest) (id : ElementId) : List ElementId :=
  (forest.placed[id]?.map (·.children)).getD []

/-- Where the children of an element go: a template has its contents. -/
def target (forest : Forest) (id : ElementId) : ElementId :=
  (forest.placed[id]?.bind (·.contents)).getD id

/-- Changes one element. -/
def update (forest : Forest) (id : ElementId) (f : Placed → Placed) : Forest :=
  ⟨forest.placed.modify id f⟩

/-- A new element without a parent. -/
def make (forest : Forest) (kind : ElementKind) : Forest × ElementId :=
  let id := forest.placed.size
  if kind.vocabulary = .html ∧ kind.name = "template" then
    (⟨(forest.placed.push ⟨kind, none, [], some (id + 1)⟩).push ⟨default, none, [], none⟩⟩, id)
  else
    (⟨forest.placed.push ⟨kind, none, [], none⟩⟩, id)

/-- Takes an element, with all below it, from its parent. -/
def detach (forest : Forest) (id : ElementId) : Forest :=
  match forest.parent? id with
  | none => forest
  | some parent =>
      (forest.update parent fun p => { p with children := p.children.filter (· ≠ id) }).update id
        fun p => { p with parent := none }

/-- Makes an element the last child of another. -/
def append (forest : Forest) (parent id : ElementId) : Forest :=
  ((forest.detach id).update parent fun p => { p with children := p.children ++ [id] }).update id
    fun p => { p with parent := some parent }

/-- Puts an element before one that has a parent. -/
def insertBefore (forest : Forest) (parent sibling id : ElementId) : Forest :=
  ((forest.detach id).update parent fun p =>
      { p with children := p.children.flatMap fun c => if c = sibling then [id, c] else [c] }).update
    id fun p => { p with parent := some parent }

/-- Moves all children of one element to the end of another's. -/
def moveChildren (forest : Forest) (source destination : ElementId) : Forest :=
  (forest.children source).foldl (fun forest child => forest.append destination child) forest

/-- Adds the attributes whose names an element does not have yet. -/
def addAttributes (forest : Forest) (id : ElementId) (more : List (String × String)) : Forest :=
  forest.update id fun p =>
    let missing := more.filter fun a => (p.kind.attributes.lookup a.1).isNone
    { p with kind := { p.kind with attributes := p.kind.attributes ++ missing } }

/-- The element of a number as a nested value, at most `depth` levels deep. -/
def node (forest : Forest) : Nat → ElementId → Node
  | 0, id => .element (forest.kind id) [] []
  | depth + 1, id =>
      let contents := (forest.placed[id]?.bind (·.contents)).map fun c => forest.children c
      .element (forest.kind id) ((contents.getD []).map (forest.node depth))
        ((forest.children id).map (forest.node depth))

/-- The elements of the document as nested values. -/
def nodes (forest : Forest) : List Node :=
  (forest.children document).map (forest.node forest.placed.size)

end Forest

end SiteCompiler.Html
