import SiteCompiler.Proofs.Component.Rescan
import SiteCompiler.Proofs.Text.Slice
set_option autoImplicit false

/-! # The spans of component elements

`findComponents` gives the outermost component elements of a document with the bytes that they
cover. Here every element is traced back to the pieces it was cut from (`ElementAt`). From this
follows what can be relied on when a document is cut at these bytes: a span is not empty, lies in
the text, begins and ends at the boundary of a character, and its slice is a start tag alone or
runs from a start tag through an end tag of the same name (`SafeSpan`). Spans follow one another
without overlap (`pairwise_findComponents`).
-/

namespace SiteCompiler.Component

open Text (utf8Length slice?)

/-! ## Elements and the pieces that they are cut from -/

/-- The elements among pieces that stand behind other pieces. -/
def elementsAfter (front pieces : List Piece) : List ComponentElement :=
  elementsFrom (utf8Length (sources front)) (segmentsOf pieces)

theorem findComponents_eq (html : String) :
    findComponents html = elementsAfter [] (scan html.toList) := rfl

theorem elementsAfter_nil (front : List Piece) : elementsAfter front [] = [] := by
  rw [elementsAfter, segmentsOf, elementsFrom]

theorem elementsAfter_cons_of_none {piece : Piece} (h : piece.componentTag? = none)
    (front pieces : List Piece) :
    elementsAfter front (piece :: pieces) = elementsAfter (front ++ [piece]) pieces := by
  rw [elementsAfter, segmentsOf_cons_of_none h, elementsFrom, elementsAfter]
  simp [Segment.source]

theorem elementsAfter_cons_of_some {piece : Piece} {t : Tag} (h : piece.componentTag? = some t)
    (front pieces : List Piece) :
    elementsAfter front (piece :: pieces) =
      ⟨t.component, utf8Length (sources front),
        utf8Length (sources (front ++ .tag t :: (elementPieces t pieces).1))⟩ ::
      elementsAfter (front ++ .tag t :: (elementPieces t pieces).1) (elementPieces t pieces).2 := by
  rw [elementsAfter, segmentsOf_cons_of_some h, elementsFrom, elementsAfter]
  simp [Segment.source, Piece.source]

/-- Where an element is cut from a list of pieces: at its start tag, with the pieces inside it. -/
structure ElementAt (pieces : List Piece) (e : ComponentElement) (before : List Piece) (t : Tag)
    (inside after : List Piece) : Prop where
  pieces_eq : pieces = before ++ .tag t :: (inside ++ after)
  opens : (Piece.tag t).componentTag? = some t
  cut : elementPieces t (inside ++ after) = (inside, after)
  component_eq : e.component = t.component
  start_eq : e.start = utf8Length (sources before)
  stop_eq : e.stop = utf8Length (sources (before ++ .tag t :: inside))

theorem elementAt_cons {t : Tag} (h : (Piece.tag t).componentTag? = some t)
    (front pieces : List Piece) :
    ElementAt (front ++ .tag t :: pieces)
      ⟨t.component, utf8Length (sources front),
        utf8Length (sources (front ++ .tag t :: (elementPieces t pieces).1))⟩
      front t (elementPieces t pieces).1 (elementPieces t pieces).2 := by
  have happ := append_elementPieces t pieces
  refine ⟨?_, h, ?_, rfl, rfl, rfl⟩
  · rw [happ]
  · rw [happ]

/-- Every element is cut from the pieces somewhere, and what follows it is cut from the pieces
behind it. -/
theorem exists_elementAt {front pieces : List Piece} {earlier later : List ComponentElement}
    {e : ComponentElement} (h : elementsAfter front pieces = earlier ++ e :: later) :
    ∃ before t inside after, ElementAt (front ++ pieces) e before t inside after ∧
      front <+: before ∧ later = elementsAfter (before ++ .tag t :: inside) after := by
  induction pieces using segmentsOf_induction generalizing front earlier with
  | nil =>
      rw [elementsAfter_nil] at h
      simp at h
  | other piece pieces hnone ih =>
      rw [elementsAfter_cons_of_none hnone] at h
      obtain ⟨before, t, inside, after, hat, hfront, hlater⟩ := ih h
      rw [List.append_assoc, List.singleton_append] at hat
      exact ⟨before, t, inside, after, hat, (List.prefix_append _ _).trans hfront, hlater⟩
  | component t pieces ht ih =>
      rw [elementsAfter_cons_of_some ht] at h
      cases earlier with
      | nil =>
          obtain ⟨rfl, rfl⟩ := List.cons.inj h
          exact ⟨front, t, _, _, elementAt_cons ht front pieces, List.prefix_refl _, rfl⟩
      | cons first earlier =>
          -- The elements behind the first one are cut from the pieces behind it.
          obtain ⟨-, hrest⟩ := List.cons.inj h
          obtain ⟨before, t', inside, after, hat, hfront, hlater⟩ := ih hrest
          rw [List.append_assoc, List.cons_append, append_elementPieces] at hat
          exact ⟨before, t', inside, after, hat, (List.prefix_append _ _).trans hfront, hlater⟩

theorem exists_elementAt_scan {html : String} {earlier later : List ComponentElement}
    {e : ComponentElement} (h : findComponents html = earlier ++ e :: later) :
    ∃ before t inside after, ElementAt (scan html.toList) e before t inside after ∧
      later = elementsAfter (before ++ .tag t :: inside) after := by
  rw [findComponents_eq] at h
  obtain ⟨before, t, inside, after, hat, -, hlater⟩ := exists_elementAt h
  exact ⟨before, t, inside, after, hat, hlater⟩

theorem le_start_of_mem {front pieces : List Piece} {e : ComponentElement}
    (h : e ∈ elementsAfter front pieces) : utf8Length (sources front) ≤ e.start := by
  obtain ⟨earlier, later, heq⟩ := List.append_of_mem h
  obtain ⟨before, t, inside, after, hat, ⟨more, rfl⟩, -⟩ := exists_elementAt heq
  rw [hat.start_eq, sources_append, Text.utf8Length_append]
  exact Nat.le_add_right _ _

/-- The elements of a document do not overlap, and stand in its order. -/
theorem pairwise_elementsAfter (front pieces : List Piece) :
    (elementsAfter front pieces).Pairwise fun e e' => e.stop ≤ e'.start := by
  induction pieces using segmentsOf_induction generalizing front with
  | nil =>
      rw [elementsAfter_nil]
      exact List.Pairwise.nil
  | other piece pieces hnone ih =>
      rw [elementsAfter_cons_of_none hnone]
      exact ih _
  | component t pieces ht ih =>
      rw [elementsAfter_cons_of_some ht]
      exact List.pairwise_cons.2 ⟨fun e he => le_start_of_mem he, ih _⟩

theorem pairwise_findComponents (html : String) :
    (findComponents html).Pairwise fun e e' => e.stop ≤ e'.start :=
  pairwise_elementsAfter [] (scan html.toList)

/-! ## The slice of an element -/

/-- The slice of a document that an element covers. -/
def ComponentElement.source (html : String) (e : ComponentElement) : String :=
  (slice? html e.start e.stop).getD ""

/-- A stretch of the pieces of a document is a slice of the document. -/
theorem slice?_sources {html : String} {front middle rest : List Piece}
    (h : scan html.toList = front ++ middle ++ rest) :
    slice? html (utf8Length (sources front)) (utf8Length (sources (front ++ middle)))
      = some (String.ofList (sources middle)) := by
  have hhtml : html = String.ofList (sources front ++ sources middle ++ sources rest) := by
    calc html = String.ofList (sources (scan html.toList)) := by
          rw [sources_scan, String.ofList_toList]
      _ = String.ofList (sources front ++ sources middle ++ sources rest) := by
          rw [h, sources_append, sources_append]
  rw [sources_append, hhtml]
  exact Text.slice?_ofList _ _ _

section

variable {html : String} {e : ComponentElement} {before inside after : List Piece} {t : Tag}

/-- An element closes itself, is not closed, or runs through the end tag that closes it. -/
theorem ElementAt.cut_cases {pieces : List Piece} (h : ElementAt pieces e before t inside after) :
    (t.selfClosing = true ∧ inside = []) ∨
      (t.selfClosing = false ∧ splitAtEnd? t.name 0 (inside ++ after) = none ∧ inside = []) ∨
      (t.selfClosing = false ∧
        splitAtEnd? t.name 0 (inside ++ after) = some (inside, after)) := by
  have hcut := h.cut
  unfold elementPieces at hcut
  split at hcut
  · next hself => exact Or.inl ⟨hself, (congrArg Prod.fst hcut).symm⟩
  · next hself =>
      rw [Bool.not_eq_true] at hself
      cases hsplit : splitAtEnd? t.name 0 (inside ++ after) with
      | none =>
          rw [hsplit] at hcut
          exact Or.inr (Or.inl ⟨hself, rfl, (congrArg Prod.fst hcut).symm⟩)
      | some cut =>
          rw [hsplit, Option.getD_some] at hcut
          exact Or.inr (Or.inr ⟨hself, congrArg some hcut⟩)

/-- The pieces inside an element are none, or end with an end tag of the name of the element. -/
theorem ElementAt.inside_cases {pieces : List Piece}
    (h : ElementAt pieces e before t inside after) :
    inside = [] ∨ ∃ front closer, inside = front ++ [.tag closer] ∧ closer.closing = true ∧
      closer.name = t.name := by
  rcases h.cut_cases with ⟨-, hnil⟩ | ⟨-, -, hnil⟩ | ⟨-, hsplit⟩
  · exact Or.inl hnil
  · exact Or.inl hnil
  · exact Or.inr (exists_tag_of_splitAtEnd? hsplit)

/-- The slice of an element, scanned on its own, has the pieces that it has in the document. -/
theorem ElementAt.scan_slice {cs : List Char} (h : ElementAt (scan cs) e before t inside after) :
    scan (sources (.tag t :: inside)) = .tag t :: inside := by
  have hpieces := h.pieces_eq
  obtain ⟨-, -, hname⟩ := source_of_componentTag? h.opens
  rcases h.inside_cases with rfl | ⟨front, closer, rfl, hclosing, -⟩
  · have hscan := scan_tag hpieces (opensRawText_of_isComponentTag hname)
    rw [sources_cons, sources_nil, List.append_nil]
    exact hscan
  · rw [List.append_assoc] at hpieces
    exact scan_between_tags hpieces (opensRawText_of_closing hclosing)

theorem ElementAt.slice_eq (h : ElementAt (scan html.toList) e before t inside after) :
    slice? html e.start e.stop = some (String.ofList (sources (.tag t :: inside))) := by
  have hcut : scan html.toList = before ++ .tag t :: inside ++ after := by
    rw [h.pieces_eq, List.append_assoc, List.cons_append]
  rw [h.start_eq, h.stop_eq]
  exact slice?_sources hcut

theorem ElementAt.source_eq (h : ElementAt (scan html.toList) e before t inside after) :
    (e.source html).toList = sources (.tag t :: inside) := by
  rw [ComponentElement.source, h.slice_eq, Option.getD_some, String.toList_ofList]

end

/-- What can be relied on when a document is cut at the span of an element. The slice, scanned on
its own, is the start tag of the element, alone or with what stands between it and an end tag of the
same name. -/
structure SafeSpan (html : String) (e : ComponentElement) : Prop where
  nonempty : e.start < e.stop
  stop_le : e.stop ≤ html.utf8ByteSize
  start_isValid : String.Pos.Raw.IsValid html ⟨e.start⟩
  stop_isValid : String.Pos.Raw.IsValid html ⟨e.stop⟩
  slice_eq : slice? html e.start e.stop = some (e.source html)
  begins : ∃ written rest, (e.source html).toList = '<' :: (written ++ rest) ∧
    Text.lowercase written = e.component.tagName.toList
  ends : (e.source html).toList.getLast? = some '>'
  pieces : ∃ t inside, scan (e.source html).toList = .tag t :: inside ∧ t.closing = false ∧
    t.component = e.component ∧ (inside = [] ∨ ∃ front closer, inside = front ++ [.tag closer] ∧
      closer.closing = true ∧ closer.name = e.component.tagName)

theorem ElementAt.safeSpan {html : String} {e : ComponentElement} {before inside after : List Piece}
    {t : Tag} (h : ElementAt (scan html.toList) e before t inside after) : SafeSpan html e := by
  obtain ⟨-, hclosing, -⟩ := source_of_componentTag? h.opens
  have hsource := h.source_eq
  have hslice : slice? html e.start e.stop = some (e.source html) := by
    rw [h.slice_eq, ← hsource, String.ofList_toList]
  obtain ⟨hlength, hle, hstart, hstop⟩ := Text.bounds_of_slice? hslice
  have hnonempty : 0 < (e.source html).utf8ByteSize := by
    rw [← Text.utf8Length_toList, hsource]
    exact Text.utf8Length_pos (by simp [Piece.source, Tag.source])
  have hname : e.component.tagName = t.name := by rw [h.component_eq]; rfl
  refine ⟨by omega, hle, hstart, hstop, hslice, ?_, ?_, ?_⟩
  · refine ⟨t.written, t.rest ++ ['>'] ++ sources inside, ?_, ?_⟩
    · rw [hsource]
      simp [Piece.source, Tag.source, hclosing]
    · rw [hname, Tag.name, String.toList_ofList]
  · -- The last character is that of the start tag or of the end tag.
    rw [hsource]
    rcases h.inside_cases with rfl | ⟨front, closer, rfl, -, -⟩
    · have hlast := getLast?_append_tag [] t
      simpa [Piece.source] using hlast
    · have hlast := getLast?_append_tag (sources (.tag t :: front)) closer
      simpa [Piece.source] using hlast
  · refine ⟨t, inside, ?_, hclosing, h.component_eq.symm, ?_⟩
    · rw [hsource, h.scan_slice]
    · rw [hname]
      exact h.inside_cases

/-- **Spans are safe to cut at.** -/
theorem safeSpan_of_mem {html : String} {e : ComponentElement} (h : e ∈ findComponents html) :
    SafeSpan html e := by
  obtain ⟨earlier, later, heq⟩ := List.append_of_mem h
  obtain ⟨before, t, inside, after, hat, -⟩ := exists_elementAt_scan heq
  exact hat.safeSpan

end SiteCompiler.Component
