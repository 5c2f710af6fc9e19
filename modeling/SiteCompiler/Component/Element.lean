import SiteCompiler.Component.Piece
set_option autoImplicit false

/-! # Component elements

An element whose name begins with `c-` is a component. `segments` cuts a document into its
outermost component elements and the text between them; a component element runs from its start
tag through the end tag that closes it, counting nested elements of the same name, and is its start
tag alone if nothing closes it or if it closes itself. `findComponents` gives the same elements
with the bytes they cover, and `extractComponents` all component start tags, nested ones included.
-/

namespace SiteCompiler.Component

/-- A component as it is referred to in a document. -/
structure ComponentRef where
  /-- The name of the element, in lower case. -/
  tagName : String
  /-- The name without what marks it as a component. -/
  componentName : String
  attributes : List (String × String)
  deriving DecidableEq, Repr

/-- What the name of a component element begins with. -/
def componentMark : List Char := ['c', '-']

/-- Whether a name in lower case denotes a component. -/
def isComponentTag (name : String) : Bool :=
  componentMark.isPrefixOf name.toList && componentMark.length < name.toList.length

/-- The component that a tag refers to. -/
def Tag.component (t : Tag) : ComponentRef where
  tagName := t.name
  componentName := String.ofList (t.name.toList.drop componentMark.length)
  attributes := attributeMap t.rest

/-- The tag of a piece, if it begins a component element. -/
def Piece.componentTag? : Piece → Option Tag
  | .tag t => if !t.closing && isComponentTag t.name then some t else none
  | _ => none

/-- Every component start tag of a document, in order. -/
def extractComponents (html : String) : List ComponentRef :=
  (scan html.toList).filterMap fun piece => piece.componentTag?.map Tag.component

/-- How a piece changes the number of open elements of a name: `some true` opens one, `some false`
closes one. -/
def Piece.nesting (name : String) : Piece → Option Bool
  | .tag t =>
      if t.name ≠ name then none
      else if t.closing then some false
      else if t.selfClosing then none
      else some true
  | _ => none

/-- Cuts pieces after the end tag that closes the outermost of `depth + 1` open elements of a
name. -/
def splitAtEnd? (name : String) : Nat → List Piece → Option (List Piece × List Piece)
  | _, [] => none
  | depth, piece :: pieces =>
      match piece.nesting name, depth with
      | some false, 0 => some ([piece], pieces)
      | some false, depth + 1 =>
          (splitAtEnd? name depth pieces).map fun cut => (piece :: cut.1, cut.2)
      | some true, depth =>
          (splitAtEnd? name (depth + 1) pieces).map fun cut => (piece :: cut.1, cut.2)
      | none, depth =>
          (splitAtEnd? name depth pieces).map fun cut => (piece :: cut.1, cut.2)

theorem append_of_splitAtEnd? {name : String} : ∀ {depth : Nat} {pieces a b : List Piece},
    splitAtEnd? name depth pieces = some (a, b) → a ++ b = pieces
  | _, [], _, _, h => by cases h
  | depth, piece :: pieces, a, b, h => by
    simp only [splitAtEnd?] at h
    split at h
    · cases h; rfl
    all_goals
      obtain ⟨⟨a', b'⟩, hcut, heq⟩ := Option.map_eq_some_iff.1 h
      cases heq
      simp [append_of_splitAtEnd? hcut]

/-- A stretch of a document: an outermost component element, or what stands between two. -/
inductive Segment where
  | text (source : List Char)
  | component (ref : ComponentRef) (source : List Char)
  deriving DecidableEq, Repr

/-- The characters that a segment covers. -/
def Segment.source : Segment → List Char
  | .text source => source
  | .component _ source => source

/-- Where the element of a start tag ends among the pieces that follow: the pieces inside it, its
end tag included, and the pieces after it. -/
def elementPieces (t : Tag) (pieces : List Piece) : List Piece × List Piece :=
  if t.selfClosing then ([], pieces)
  else (splitAtEnd? t.name 0 pieces).getD ([], pieces)

theorem length_elementPieces (t : Tag) (pieces : List Piece) :
    (elementPieces t pieces).2.length ≤ pieces.length := by
  unfold elementPieces
  split
  · exact Nat.le_refl _
  · cases h : splitAtEnd? t.name 0 pieces with
    | none => exact Nat.le_refl _
    | some cut =>
      have := congrArg List.length (append_of_splitAtEnd? h)
      simp only [List.length_append] at this
      simp only [Option.getD_some]
      omega

/-- The segments of a list of pieces. -/
def segmentsOf : List Piece → List Segment
  | [] => []
  | piece :: pieces =>
      match piece.componentTag? with
      | none => .text piece.source :: segmentsOf pieces
      | some t =>
          let cut := elementPieces t pieces
          .component t.component (t.source ++ sources cut.1) :: segmentsOf cut.2
termination_by pieces => pieces.length
decreasing_by
  · exact Nat.lt_succ_self _
  · exact Nat.lt_succ_of_le (length_elementPieces t pieces)

/-- The segments of a document. -/
def segments (html : String) : List Segment := segmentsOf (scan html.toList)

/-- A component element and the bytes it covers: from `start` up to `stop`. -/
structure ComponentElement where
  component : ComponentRef
  start : Nat
  stop : Nat
  deriving DecidableEq, Repr

/-- The component elements among segments of which the first begins at byte `offset`. -/
def elementsFrom (offset : Nat) : List Segment → List ComponentElement
  | [] => []
  | segment :: rest =>
      let stop := offset + Text.utf8Length segment.source
      match segment with
      | .text _ => elementsFrom stop rest
      | .component ref _ => ⟨ref, offset, stop⟩ :: elementsFrom stop rest

/-- The outermost component elements of a document, in order. -/
def findComponents (html : String) : List ComponentElement := elementsFrom 0 (segments html)

end SiteCompiler.Component
