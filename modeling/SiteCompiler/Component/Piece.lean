import SiteCompiler.Component.Attribute
set_option autoImplicit false

/-! # A document in pieces

A document is cut, from left to right, into tags and what stands between them. Nothing is dropped:
the sources of the pieces, put together, are the document. No tree is built, so a
piece knows nothing of its neighbours, except that the contents of a raw-text element are one piece
that runs to the next end tag of that element.

* A comment runs from `<!--` through the next `-->`.
* A tag is `<` or `</`, a name, and everything up to the first `>` outside quotes.
* A comment, tag or raw text that does not end takes the rest of the document.
* Everything else is plain text, also a `<` that begins none of these.
-/

namespace SiteCompiler.Component

/-- A start or end tag, cut into the parts it is written in. -/
structure Tag where
  closing : Bool
  /-- The name as it is written. -/
  written : List Char
  /-- The source between the name and the `>`. -/
  rest : List Char
  deriving DecidableEq, Repr

namespace Tag

/-- The name of the element, in lower case. -/
def name (t : Tag) : String := String.ofList (Text.lowercase t.written)

/-- The tag as it stands in the document. -/
def source (t : Tag) : List Char :=
  '<' :: (if t.closing then ['/'] else []) ++ t.written ++ t.rest ++ ['>']

/-- Whether the tag is written `<name … />`. -/
def selfClosing (t : Tag) : Bool := closesItself t.rest

/-- The elements whose contents are not markup. -/
def rawTextNames : List String := ["script", "style", "textarea", "title"]

/-- Whether raw text follows the tag. -/
def opensRawText (t : Tag) : Bool :=
  !t.closing && !t.selfClosing && rawTextNames.contains t.name

end Tag

/-- A stretch of a document. -/
inductive Piece where
  | text (source : List Char)
  | comment (source : List Char)
  | rawText (source : List Char)
  | tag (t : Tag)
  /-- A comment, tag or raw text without an end. -/
  | unclosed (source : List Char)
  deriving DecidableEq, Repr

/-- The characters of the document that a piece covers. -/
def Piece.source : Piece → List Char
  | .text source => source
  | .comment source => source
  | .rawText source => source
  | .tag t => t.source
  | .unclosed source => source

/-- The characters that a list of pieces covers. -/
def sources (pieces : List Piece) : List Char := pieces.flatMap Piece.source

/-- Puts plain text before other pieces, joined to plain text that they begin with. -/
def consText : List Char → List Piece → List Piece
  | [], pieces => pieces
  | cs, .text more :: pieces => .text (cs ++ more) :: pieces
  | cs, pieces => .text cs :: pieces

/-- The characters of a tag name after the first, which is a letter. -/
def isTagNameChar (c : Char) : Bool :=
  c.isAlphanum || c == ':' || c == '.' || c == '_' || c == '-'

/-- The tag name that a text begins with, and what follows it. -/
def tagName? : List Char → Option (List Char × List Char)
  | c :: cs =>
      if c.isAlpha then some (c :: cs.takeWhile isTagNameChar, cs.dropWhile isTagNameChar) else none
  | [] => none

/-- The beginning of a tag, read after its `<`: whether it is an end tag, its name, and what
follows. -/
def tagHead? : List Char → Option (Bool × List Char × List Char)
  | '/' :: cs => (tagName? cs).map fun (name, rest) => (true, name, rest)
  | cs => (tagName? cs).map fun (name, rest) => (false, name, rest)

/-- The source up to the first `>` outside quotes, and what follows it. `quote` is the quote that
is open. -/
def tagRest? : Option Char → List Char → Option (List Char × List Char)
  | _, [] => none
  | some quote, c :: cs =>
      (tagRest? (if c = quote then none else some quote) cs).map fun cut => (c :: cut.1, cut.2)
  | none, c :: cs =>
      if c = '>' then some ([], cs)
      else
        (tagRest? (if c = '"' ∨ c = '\'' then some c else none) cs).map
          fun cut => (c :: cut.1, cut.2)

/-- Whether a text begins with an end tag of the element, in any ASCII case. Only the beginning of
the name is compared. -/
def beginsEndTag (name : List Char) (cs : List Char) : Bool :=
  (['<', '/'] ++ name).isPrefixOf (Text.lowercase (cs.take (name.length + 2)))

/-- A tag and the raw text that follows it, if any, with the rest of the document. -/
def withRawText (t : Tag) (cs : List Char) : List Piece × List Char :=
  if t.opensRawText then
    match Text.breakBefore? (beginsEndTag (Text.lowercase t.written)) cs with
    | some (body, rest) => ([.tag t, .rawText body], rest)
    | none => ([.tag t, .unclosed cs], [])
  else ([.tag t], cs)

/-- The comment or tag that begins with a `<`, read after it, with the rest of the document.
`none` if the `<` is plain text. -/
def construct? (cs : List Char) : Option (List Piece × List Char) :=
  match ['!', '-', '-'].isPrefixOf? cs with
  | some inner =>
      match Text.breakOn? ['-', '-', '>'] inner with
      | some (body, rest) => some ([.comment ("<!--".toList ++ body ++ "-->".toList)], rest)
      -- A comment that is not closed takes up the rest of the document, and so does a tag.
      | none => some ([.unclosed ('<' :: cs)], [])
  | none =>
      match tagHead? cs with
      | none => none
      | some (closing, name, rest) =>
          match tagRest? none rest with
          | some (inside, after) => some (withRawText ⟨closing, name, inside⟩ after)
          | none => some ([.unclosed ('<' :: cs)], [])

/-! ## The rest of the document gets shorter -/

theorem length_tagName? {cs name rest : List Char} (h : tagName? cs = some (name, rest)) :
    rest.length ≤ cs.length := by
  cases cs with
  | nil => cases h
  | cons c cs =>
    simp only [tagName?] at h
    split at h
    · cases h
      exact Nat.le_succ_of_le (length_dropWhile_le _ _)
    · cases h

theorem length_tagHead? {cs name rest : List Char} {closing : Bool}
    (h : tagHead? cs = some (closing, name, rest)) : rest.length ≤ cs.length := by
  unfold tagHead? at h
  split at h
  · obtain ⟨⟨a, b⟩, hname, heq⟩ := Option.map_eq_some_iff.1 h
    cases heq
    exact Nat.le_succ_of_le (length_tagName? hname)
  · obtain ⟨⟨a, b⟩, hname, heq⟩ := Option.map_eq_some_iff.1 h
    cases heq
    exact length_tagName? hname

theorem length_tagRest? : ∀ {quote : Option Char} {cs inside rest : List Char},
    tagRest? quote cs = some (inside, rest) → rest.length ≤ cs.length
  | quote, [], _, _, h => by cases quote <;> cases h
  | some quote, c :: cs, _, _, h => by
    obtain ⟨⟨a, b⟩, hrest, heq⟩ := Option.map_eq_some_iff.1 h
    cases heq
    exact Nat.le_succ_of_le (length_tagRest? hrest)
  | none, c :: cs, _, _, h => by
    simp only [tagRest?] at h
    split at h
    · cases h
      exact Nat.le_succ _
    · obtain ⟨⟨a, b⟩, hrest, heq⟩ := Option.map_eq_some_iff.1 h
      cases heq
      exact Nat.le_succ_of_le (length_tagRest? hrest)

theorem length_withRawText (t : Tag) (cs : List Char) :
    (withRawText t cs).2.length ≤ cs.length := by
  unfold withRawText
  split
  · split
    · next body rest hcut =>
      have := congrArg List.length (Text.append_of_breakBefore? hcut)
      simp only [List.length_append] at this
      simp only
      omega
    · exact Nat.zero_le _
  · exact Nat.le_refl _

theorem length_isPrefixOf? {pre cs rest : List Char} (h : pre.isPrefixOf? cs = some rest) :
    rest.length ≤ cs.length := by
  induction pre generalizing cs with
  | nil => cases h; exact Nat.le_refl _
  | cons p pre ih =>
    cases cs with
    | nil => cases h
    | cons c cs =>
      change (if p == c then pre.isPrefixOf? cs else none) = some rest at h
      split at h
      · exact Nat.le_succ_of_le (ih h)
      · cases h

theorem length_construct? {cs rest : List Char} {pieces : List Piece}
    (h : construct? cs = some (pieces, rest)) : rest.length ≤ cs.length := by
  unfold construct? at h
  split at h
  · next inner hpre =>
    have hinner := length_isPrefixOf? hpre
    split at h
    · next body after hcut =>
      cases h
      obtain ⟨⟨a, b⟩, hbreak, heq⟩ := Option.map_eq_some_iff.1 hcut
      cases heq
      have := congrArg List.length (Text.append_of_breakBefore? hbreak)
      simp only [List.length_append] at this
      simp only [List.length_drop]
      omega
    · cases h
      exact Nat.zero_le _
  · split at h
    · cases h
    · next closing name after hhead =>
      have hafter := length_tagHead? hhead
      split at h
      · next inside later hrest =>
        have hlater := length_tagRest? hrest
        have hraw := length_withRawText ⟨closing, name, inside⟩ later
        rw [Option.some.inj h] at hraw
        exact Nat.le_trans hraw (Nat.le_trans hlater hafter)
      · cases h
        exact Nat.zero_le _

/-- The pieces of a document. -/
def scan (cs : List Char) : List Piece :=
  match _h : cs.dropWhile (· ≠ '<') with
  | [] => consText cs []
  | lt :: after =>
      let before := cs.takeWhile (· ≠ '<')
      match _hc : construct? after with
      -- A lone `<` is text, and what follows it is looked at anew.
      | none => consText (before ++ [lt]) (scan after)
      | some (pieces, rest) => consText before (pieces ++ scan rest)
termination_by cs.length
decreasing_by
  · have := length_dropWhile_le (· ≠ '<') cs
    rw [_h, List.length_cons] at this
    omega
  · have hafter := length_dropWhile_le (· ≠ '<') cs
    have hrest := length_construct? _hc
    rw [_h, List.length_cons] at hafter
    omega

end SiteCompiler.Component
