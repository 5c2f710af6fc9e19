import SiteCompiler.Html.Builder
set_option autoImplicit false

/-! # Formatting elements

Bold and italic text, links and the like may be closed in another order than they were opened.
A list of the active formatting elements is kept beside the stack. Where one of them was closed on
the way by another end tag it is opened again before the next contents (`reopenFormatting`), and an
end tag that cuts through a block takes the formatting element apart: the part inside the block
becomes an element of its own (`closeFormatting`).
-/

namespace SiteCompiler.Html.Construct

/-- The formatting elements after the last marker, newest first. -/
def activeEntries (entries : List Formatting) : List (ElementId × StartTag) :=
  (entries.takeWhile fun
    | .marker => false
    | .element _ _ => true).filterMap fun
    | .marker => none
    | .element id tag => some (id, tag)

/-- The tag of an active formatting element. -/
def formattingTag? (entries : List Formatting) (id : ElementId) : Option StartTag :=
  entries.findSome? fun
    | .marker => none
    | .element other tag => if other = id then some tag else none

/-- The list without an element. -/
def withoutEntry (entries : List Formatting) (id : ElementId) : List Formatting :=
  entries.filter fun
    | .marker => true
    | .element other _ => other ≠ id

/-- The list with something else in the place of an element. -/
def replaceEntry (entries : List Formatting) (id : ElementId) (new : List Formatting) :
    List Formatting :=
  entries.flatMap fun
    | .marker => [.marker]
    | .element other tag => if other = id then new else [.element other tag]

/-- Takes an element from the list of active formatting elements. -/
def forgetFormatting (id : ElementId) : Construct Unit :=
  modify fun b => { b with formatting := withoutEntry b.formatting id }

/-- Opens the formatting elements again that were closed on the way, the oldest first. -/
def reopenFormatting : Construct Unit := do
  let b ← get
  let closed := (activeEntries b.formatting).takeWhile fun entry => !b.stack.contains entry.1
  closed.reverse.forM fun (old, tag) => do
    let id ← openTag tag
    modify fun b => { b with formatting := replaceEntry b.formatting old [.element id tag] }

/-- Whether two tags have one name and the same attributes, in any order. -/
def sameTag (a b : StartTag) : Bool :=
  a.name == b.name && a.attributes.length == b.attributes.length
    && a.attributes.all b.attributes.contains

/-- Opens a formatting element. Of four alike the oldest is no longer reopened. -/
def openFormatting (tag : StartTag) : Construct Unit := do
  let b ← get
  let alike := (activeEntries b.formatting).filter fun entry => sameTag entry.2 tag
  if 3 ≤ alike.length then
    alike.getLast?.forM fun entry => forgetFormatting entry.1
  let id ← openTag tag
  modify fun b => { b with formatting := .element id tag :: b.formatting }

/-- An end tag without rules of its own: closes the innermost element of its name, unless a special
element stands in between. -/
def closeOrdinary (name : String) : Construct Unit := do
  let b ← get
  match b.stack.find? fun id => isHtml b.forest (name :: specialNames) id with
  | none => return ()
  | some id =>
      if isHtml b.forest [name] id then
        modify fun b => { b with stack := (b.stack.dropWhile (· ≠ id)).drop 1 }

/-- The work on the elements between a block and the formatting element around it. -/
structure Rebuilding where
  /-- The part that is finished; it goes into the next element. -/
  last : ElementId
  /-- The element after which the formatting element is remembered, if not in its old place. -/
  bookmark : Option ElementId
  /-- What stays open, innermost first. -/
  kept : List ElementId
  count : Nat

/-- Copies one element between the block and the formatting element, or drops it from the stack. -/
def rebuildOne (block : ElementId) (work : Rebuilding) (id : ElementId) :
    Construct Rebuilding := do
  let b ← get
  let count := work.count + 1
  match formattingTag? b.formatting id with
  -- What is not remembered as formatting is dropped from the stack and not copied.
  | none => return { work with count := count }
  | some tag =>
      -- Nor is anything beyond the third element, which is no longer remembered either.
      if 3 < count then
        forgetFormatting id
        return { work with count := count }
      else
        let (forest, copy) := b.forest.make ⟨.html, tag.name, tag.attributes⟩
        set { b with
          forest := forest.append copy work.last
          formatting := replaceEntry b.formatting id [.element copy tag] }
        return {
          last := copy
          bookmark := if work.last = block then some copy else work.bookmark
          kept := work.kept ++ [copy]
          count := count }

/-- Takes a formatting element apart at a block inside it. `inner` are the open elements inside the
block, `between` those between it and the formatting element `id`, `outer` those around that,
each innermost first. -/
def splitAtBlock (id : ElementId) (tag : StartTag) (block : ElementId)
    (inner between outer : List ElementId) : Construct Unit := do
  let work ← between.foldlM (rebuildOne block) ⟨block, none, [], 0⟩
  let b ← get
  let place := placeIn b (outer.headD Forest.document)
  let forest := place.put (b.forest.detach work.last) work.last
  let (forest, copy) := forest.make ⟨.html, tag.name, tag.attributes⟩
  let forest := (forest.moveChildren block copy).append block copy
  let formatting :=
    match work.bookmark with
    | none => replaceEntry b.formatting id [.element copy tag]
    | some mark =>
        match formattingTag? b.formatting mark with
        | some markTag =>
            withoutEntry
              (replaceEntry b.formatting mark [.element copy tag, .element mark markTag]) id
        | none => withoutEntry b.formatting id
  set { b with
    forest := forest
    formatting := formatting
    stack := inner ++ copy :: block :: work.kept ++ outer }

/-- One round of `closeFormatting`; the answer is whether another round is to follow. -/
def closeFormattingRound (name : String) : Construct Bool := do
  let b ← get
  match (activeEntries b.formatting).find? fun entry => entry.2.name == name with
  | none =>
      closeOrdinary name
      return false
  | some (id, tag) =>
      -- Remembered, but closed already or out of reach: there is nothing to take apart.
      if !b.stack.contains id then
        forgetFormatting id
        return false
      else if !(← inScope isScope fun _ other => other == id) then
        return false
      else
        let inside := b.stack.takeWhile (· ≠ id)
        let outer := (b.stack.dropWhile (· ≠ id)).drop 1
        let isSpecial := isHtml b.forest specialNames
        match inside.reverse.dropWhile fun other => !isSpecial other with
        -- No block inside: the element is closed with everything in it.
        | [] =>
            modify fun b =>
              { b with stack := outer, formatting := withoutEntry b.formatting id }
            return false
        -- The outermost block inside is moved out, and gets a copy of the element inside it.
        | block :: inner =>
            let between := inside.reverse.takeWhile fun other => !isSpecial other
            splitAtBlock id tag block inner.reverse between.reverse outer
            return true

/-- At most `rounds` rounds of `closeFormatting`. -/
def closeFormattingRounds (name : String) : Nat → Construct Unit
  | 0 => return ()
  | rounds + 1 => do
      if ← closeFormattingRound name then closeFormattingRounds name rounds

/-- An end tag of a formatting element. -/
def closeFormatting (name : String) : Construct Unit := do
  let b ← get
  match b.stack with
  | current :: _ =>
      if isHtml b.forest [name] current && (formattingTag? b.formatting current).isNone then pop
      else closeFormattingRounds name 8
  | [] => return ()

/-- A link inside a link ends the outer one. -/
def closeOuterLink : Construct Unit := do
  let b ← get
  match (activeEntries b.formatting).find? fun entry => isHtml b.forest ["a"] entry.1 with
  | none => return ()
  | some (id, _) =>
      closeFormatting "a"
      forgetFormatting id
      removeFromStack id

end SiteCompiler.Html.Construct
