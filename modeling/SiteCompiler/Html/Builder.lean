import SiteCompiler.Html.Forest
import SiteCompiler.Html.RawText
set_option autoImplicit false

/-! # The stack of open elements

Tags are turned into a tree with the help of a stack of open elements. The functions here are the
steps that the rules for tags are made of (`Html.Insertion`): where a new element goes, which
elements an end tag may reach (its *scope*), and which elements are closed on the way.
-/

namespace SiteCompiler.Html

/-- The part of a document that is being read, which decides what a token does. -/
inductive Mode where
  | initial
  | beforeHtml
  | beforeHead
  | inHead
  | afterHead
  | inBody
  | text
  | inTable
  | inTableText
  | inCaption
  | inColumnGroup
  | inTableBody
  | inRow
  | inCell
  | inSelect
  | inSelectInTable
  | inTemplate
  | afterBody
  | inFrameset
  | afterFrameset
  | afterAfterBody
  | afterAfterFrameset
  deriving DecidableEq, Repr

/-- An entry in the list of active formatting elements: an element with the tag that made it, or
the border of a part of the document that formatting does not reach into. -/
inductive Formatting where
  | marker
  | element (id : ElementId) (tag : StartTag)

/-- A document that has been read in part. The stack, the formatting list and the modes of
templates have their newest entry first. -/
structure Builder where
  forest : Forest
  stack : List ElementId
  formatting : List Formatting
  head : Option ElementId
  form : Option ElementId
  mode : Mode
  /-- The mode that comes after raw text or after text in a table. -/
  returnMode : Mode
  templateModes : List Mode
  /-- Text in a table, newest first, that waits to be placed. -/
  tableText : List Token
  /-- Whether a frameset may still take the place of the body. -/
  framesetOk : Bool
  /-- Whether elements out of place in a table go before it. -/
  fosterParenting : Bool
  /-- Whether a line end at the beginning of the next text counts for nothing. -/
  skipNewline : Bool
  /-- How what comes next is to be read. -/
  contents : Contents

/-- A document of which nothing has been read. -/
def Builder.start : Builder where
  forest := .empty
  stack := []
  formatting := []
  head := none
  form := none
  mode := .initial
  returnMode := .inBody
  templateModes := []
  tableText := []
  framesetOk := true
  fosterParenting := false
  skipNewline := false
  contents := .markup

/-- A step in reading a document. -/
abbrev Construct := StateM Builder

namespace Construct

/-! ## Sets of element names -/

/-- Elements that an end tag does not reach beyond. -/
def scopeNames : List String :=
  ["applet", "caption", "html", "table", "td", "th", "marquee", "object", "template"]

/-- Elements that are closed where another end tag implies it. -/
def impliedEndNames : List String :=
  ["dd", "dt", "li", "option", "optgroup", "p", "rb", "rp", "rt", "rtc"]

/-- Elements that are closed at the end of a template. -/
def thoroughEndNames : List String :=
  impliedEndNames
    ++ ["caption", "colgroup", "tbody", "td", "tfoot", "th", "thead", "tr"]

/-- The headings. -/
def headingNames : List String := ["h1", "h2", "h3", "h4", "h5", "h6"]

/-- Elements that an end tag of another element does not close on its way. -/
def specialNames : List String :=
  ["address", "applet", "area", "article", "aside", "base", "basefont", "bgsound", "blockquote",
    "body", "br", "button", "caption", "center", "col", "colgroup", "dd", "details", "dir", "div",
    "dl", "dt", "embed", "fieldset", "figcaption", "figure", "footer", "form", "frame", "frameset",
    "h1", "h2", "h3", "h4", "h5", "h6", "head", "header", "hgroup", "hr", "html", "iframe", "img",
    "input", "isindex", "li", "link", "listing", "main", "marquee", "menu", "meta", "nav",
    "noembed", "noframes", "noscript", "object", "ol", "p", "param", "plaintext", "pre", "script",
    "search", "section", "select", "source", "style", "summary", "table", "tbody", "td", "template",
    "textarea", "tfoot", "th", "thead", "title", "tr", "track", "ul", "wbr", "xmp"]

/-- The parts of a table around its cells. -/
def tableParts : List String := ["table", "tbody", "tfoot", "thead", "tr"]

/-! ## Looking at the stack -/

/-- Whether the element is an HTML element with one of these names. -/
def isHtml (forest : Forest) (names : List String) (id : ElementId) : Bool :=
  let kind := forest.kind id
  kind.vocabulary == .html && names.contains kind.name

/-- Whether text and most tags inside this MathML element are HTML. -/
def isMathTextPoint (kind : ElementKind) : Bool :=
  kind.vocabulary == .mathml && ["mi", "mo", "mn", "ms", "mtext"].contains kind.name

/-- Whether the contents of this SVG element are HTML. -/
def isSvgHtmlPoint (kind : ElementKind) : Bool :=
  kind.vocabulary == .svg && ["foreignobject", "desc", "title"].contains kind.name

/-- Whether this is an annotation in HTML to a formula. -/
def annotatesInHtml (kind : ElementKind) : Bool :=
  match kind.attributes.lookup "encoding" with
  | some encoding =>
      ["text/html", "application/xhtml+xml"].contains
        (String.ofList (Text.lowercase encoding.toList))
  | none => false

/-- Whether an end tag does not reach beyond the element. -/
def isScope (forest : Forest) (id : ElementId) : Bool :=
  isHtml forest scopeNames id || isMathTextPoint (forest.kind id)
    || isSvgHtmlPoint (forest.kind id)

/-- Whether an element satisfying `p` is open, with no element satisfying `stop` inside it. -/
def inScope (stop p : Forest → ElementId → Bool) : Construct Bool := do
  let b ← get
  let reach := b.stack.find? fun id => p b.forest id || stop b.forest id
  return reach.any (p b.forest)

/-- Whether an element with one of these names is open within the usual scope. -/
def hasInScope (names : List String) : Construct Bool :=
  inScope isScope fun forest => isHtml forest names

/-- Whether an element of this name is open within the scope of a table. -/
def hasInTableScope (names : List String) : Construct Bool :=
  inScope (fun forest => isHtml forest ["html", "table", "template"])
    fun forest => isHtml forest names

/-- Whether a `p` is open within the scope of a button. -/
def hasParagraph : Construct Bool :=
  inScope (fun forest id => isScope forest id || isHtml forest ["button"] id)
    fun forest => isHtml forest ["p"]

/-- Whether a `select` is open with nothing but its options inside it. -/
def hasSelect : Construct Bool :=
  inScope (fun forest id => !isHtml forest ["optgroup", "option"] id)
    fun forest => isHtml forest ["select"]

/-- Whether an HTML element of this name is open. -/
def isOpen (name : String) : Construct Bool := do
  let b ← get
  return b.stack.any (isHtml b.forest [name])

/-- Whether the innermost open element is an HTML element with one of these names. -/
def currentIs (names : List String) : Construct Bool := do
  let b ← get
  return b.stack.head?.any (isHtml b.forest names)

/-! ## Closing elements -/

/-- Closes the innermost open element. -/
def pop : Construct Unit := modify fun b => { b with stack := b.stack.drop 1 }

/-- Closes elements until one of these names is innermost. -/
def popToCurrent (names : List String) : Construct Unit :=
  modify fun b =>
    { b with stack := b.stack.dropWhile fun id => !isHtml b.forest names id }

/-- Closes elements through the innermost with one of these names. -/
def popThrough (names : List String) : Construct Unit := do
  popToCurrent names
  pop

/-- Closes the elements whose end is implied. -/
def closeImplied (names : List String) : Construct Unit :=
  modify fun b => { b with stack := b.stack.dropWhile (isHtml b.forest names) }

/-- Closes the elements whose end is implied, other than those of one name. -/
def closeImpliedExcept (name : String) : Construct Unit :=
  closeImplied (impliedEndNames.filter (· ≠ name))

/-- Closes an open paragraph. -/
def closeParagraph : Construct Unit := do
  closeImpliedExcept "p"
  popThrough ["p"]

/-- Closes an open paragraph, if there is one within reach. -/
def closeParagraphInReach : Construct Unit := do
  if ← hasParagraph then closeParagraph

/-- Takes an element from the stack, wherever it stands. -/
def removeFromStack (id : ElementId) : Construct Unit :=
  modify fun b => { b with stack := b.stack.filter (· ≠ id) }

/-- Forgets the formatting elements through the last marker. -/
def clearFormatting : Construct Unit :=
  modify fun b =>
    { b with formatting := (b.formatting.dropWhile fun
        | .marker => false
        | .element _ _ => true).drop 1 }

/-! ## Placing elements -/

/-- Where a new element goes. -/
inductive Place where
  | lastChildOf (parent : ElementId)
  | before (parent sibling : ElementId)

/-- The table before which an element out of place goes, or the element that takes it instead.
`stack` is what is open, innermost first. -/
def fosterPlace (forest : Forest) : List ElementId → Place
  | [] => .lastChildOf Forest.document
  | [root] => .lastChildOf (forest.target root)
  | id :: outer :: rest =>
      if isHtml forest ["template"] id then .lastChildOf (forest.target id)
      else if isHtml forest ["table"] id then
        match forest.parent? id with
        | some parent => .before parent id
        | none => .lastChildOf outer
      else fosterPlace forest (outer :: rest)

/-- Where an element goes that is to be placed in `target`. -/
def placeIn (b : Builder) (target : ElementId) : Place :=
  if b.fosterParenting && isHtml b.forest tableParts target then fosterPlace b.forest b.stack
  else .lastChildOf (b.forest.target target)

/-- Puts an element in its place. -/
def Place.put (place : Place) (forest : Forest) (id : ElementId) : Forest :=
  match place with
  | .lastChildOf parent => forest.append parent id
  | .before parent sibling => forest.insertBefore parent sibling id

/-- Makes an element and puts it where elements go at the moment. -/
def insert (kind : ElementKind) : Construct ElementId := do
  let b ← get
  let place := placeIn b (b.stack.headD Forest.document)
  let (forest, id) := b.forest.make kind
  set { b with forest := place.put forest id }
  return id

/-- Opens an element. -/
def push (id : ElementId) : Construct Unit :=
  modify fun b => { b with stack := id :: b.stack }

/-- Makes an HTML element, and opens it. -/
def openElement (name : String) (attributes : List (String × String)) : Construct ElementId := do
  let id ← insert ⟨.html, name, attributes⟩
  push id
  return id

/-- Makes the element of a tag, and opens it. -/
def openTag (tag : StartTag) : Construct ElementId := openElement tag.name tag.attributes

/-- Makes the element of a tag, which has no contents. -/
def insertVoid (tag : StartTag) : Construct ElementId := insert ⟨.html, tag.name, tag.attributes⟩

/-- Makes the root element. -/
def openRoot (attributes : List (String × String)) : Construct Unit := do
  let b ← get
  let (forest, id) := b.forest.make ⟨.html, "html", attributes⟩
  set { b with forest := forest.append Forest.document id, stack := [id] }

/-- Makes an SVG or MathML element, and opens it unless its tag closes itself. -/
def openForeign (vocabulary : Vocabulary) (tag : StartTag) : Construct Unit := do
  let id ← insert ⟨vocabulary, tag.name, tag.attributes⟩
  if !tag.selfClosing then push id

/-- Adds to an open element the attributes that it does not have. -/
def addAttributes (id : ElementId) (attributes : List (String × String)) : Construct Unit :=
  modify fun b => { b with forest := b.forest.addAttributes id attributes }

/-- The root element. -/
def root : Construct (Option ElementId) := do return (← get).stack.getLast?

/-- The body, if the element inside the root is one. -/
def body : Construct (Option ElementId) := do
  let b ← get
  match b.stack.reverse with
  | _ :: second :: _ => return if isHtml b.forest ["body"] second then some second else none
  | _ => return none

/-! ## Changes of mode -/

/-- Goes over to another mode. -/
def setMode (mode : Mode) : Construct Unit := modify fun b => { b with mode := mode }

/-- Makes the element of a tag whose contents are read in a way of their own. -/
def openRaw (tag : StartTag) (contents : Contents) : Construct Unit := do
  let _ ← openTag tag
  modify fun b => { b with returnMode := b.mode, mode := .text, contents := contents }

/-- From now on no frameset can take the place of the body. -/
def noFrameset : Construct Unit := modify fun b => { b with framesetOk := false }

/-- The mode inside a `select`, given what is open around it. -/
def selectMode (forest : Forest) (outer : List ElementId) : Mode :=
  match outer.find? (isHtml forest ["template", "table"]) with
  | some id => if isHtml forest ["table"] id then .inSelectInTable else .inSelect
  | none => .inSelect

/-- The mode that the open elements, innermost first, ask for. -/
def modeOf (b : Builder) : List ElementId → Mode
  | [] => .inBody
  | id :: outer =>
      let kind := b.forest.kind id
      let isRoot := outer.isEmpty
      if kind.vocabulary ≠ .html then modeOf b outer
      else
        match kind.name with
        | "select" => selectMode b.forest outer
        | "td" | "th" => if isRoot then modeOf b outer else .inCell
        | "tr" => .inRow
        | "tbody" | "thead" | "tfoot" => .inTableBody
        | "caption" => .inCaption
        | "colgroup" => .inColumnGroup
        | "table" => .inTable
        | "template" => b.templateModes.headD .inBody
        | "head" => if isRoot then modeOf b outer else .inHead
        | "body" => .inBody
        | "frameset" => .inFrameset
        | "html" => if b.head.isNone then .beforeHead else .afterHead
        | _ => modeOf b outer

/-- The mode that what is open asks for. -/
def currentMode : Construct Mode := do
  let b ← get
  return modeOf b b.stack

/-- Goes over to the mode that what is open asks for. -/
def resetMode : Construct Unit := do setMode (← currentMode)

end Construct

end SiteCompiler.Html
