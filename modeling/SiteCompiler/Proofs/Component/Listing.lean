import SiteCompiler.Proofs.Component.Span
import Mathlib.Data.List.Pairwise
set_option autoImplicit false

/-! # The flat listing and the outermost one

A document's components are listed in two ways: `extractComponents` lists every start tag,
`findComponents` the outermost elements only. The first is obtained from the second by listing what
each span holds, scanned anew (`extractComponents_spans`). So no start tag is lost by the jump from
an element to the end tag that closes it, and none is counted in two spans.
-/

namespace SiteCompiler.Component

open Text (utf8Length slice?)

/-! ## The components in spans -/

/-- The components in the slice of an element are those of its pieces. -/
theorem ElementAt.extractComponents_source {html : String} {e : ComponentElement}
    {before inside after : List Piece} {t : Tag}
    (h : ElementAt (scan html.toList) e before t inside after) :
    extractComponents (e.source html) = t.component :: componentsOf inside := by
  rw [extractComponents_eq, h.source_eq, h.scan_slice, componentsOf_cons_of_some h.opens]

/-- The components from any place on are those of the elements from there on. -/
theorem componentsOf_eq_flatMap {html : String} (front pieces : List Piece)
    (h : scan html.toList = front ++ pieces) :
    componentsOf pieces
      = (elementsAfter front pieces).flatMap fun e => extractComponents (e.source html) := by
  induction pieces using segmentsOf_induction generalizing front with
  | nil =>
      rw [elementsAfter_nil]
      rfl
  | other piece pieces hnone ih =>
      have hnext : scan html.toList = front ++ [piece] ++ pieces := by
        rw [h]
        simp
      rw [componentsOf_cons_of_none hnone, elementsAfter_cons_of_none hnone, ih _ hnext]
  | component t pieces ht ih =>
      have hat := elementAt_cons ht front pieces
      rw [← h] at hat
      have hnext : scan html.toList
          = front ++ .tag t :: (elementPieces t pieces).1 ++ (elementPieces t pieces).2 := by
        rw [hat.pieces_eq]
        simp
      rw [elementsAfter_cons_of_some ht, List.flatMap_cons, hat.extractComponents_source,
        ← ih _ hnext]
      calc componentsOf (.tag t :: pieces)
          = t.component :: componentsOf pieces := componentsOf_cons_of_some ht pieces
        _ = t.component
              :: componentsOf ((elementPieces t pieces).1 ++ (elementPieces t pieces).2) := by
            rw [append_elementPieces]
        _ = t.component :: componentsOf (elementPieces t pieces).1
              ++ componentsOf (elementPieces t pieces).2 := by
            rw [componentsOf_append, List.cons_append]

/-! ## Start tags and spans -/

/-- The element covers the bytes from `start` up to `stop`. -/
def ComponentElement.Covers (e : ComponentElement) (start stop : Nat) : Prop :=
  e.start ≤ start ∧ stop ≤ e.stop

/-- An entry of two lists put together stands in the first one or in the second one. -/
theorem append_eq_append_cons {α : Type} {as bs cs ds : List α} {x : α}
    (h : as ++ bs = cs ++ x :: ds) :
    (∃ more, as = cs ++ x :: more) ∨ ∃ more, cs = as ++ more ∧ bs = more ++ x :: ds := by
  rcases List.append_eq_append_iff.1 h with ⟨more, hcs, hbs⟩ | ⟨more, has, hds⟩
  · exact Or.inr ⟨more, hcs, hbs⟩
  · cases more with
    | nil => exact Or.inr ⟨[], by simpa using has.symm, hds.symm⟩
    | cons y more =>
        obtain ⟨rfl, -⟩ := List.cons.inj hds
        exact Or.inl ⟨more, has⟩

/-- Every start tag of a component stands in an element. -/
theorem exists_covers {t : Tag} (ht : (Piece.tag t).componentTag? = some t)
    (front gap after : List Piece) :
    ∃ e ∈ elementsAfter front (gap ++ .tag t :: after),
      e.Covers (utf8Length (sources (front ++ gap)))
        (utf8Length (sources (front ++ gap ++ [.tag t]))) := by
  generalize hpieces : gap ++ .tag t :: after = pieces
  induction pieces using segmentsOf_induction generalizing front gap with
  | nil => simp at hpieces
  | other piece pieces hnone ih =>
      rw [elementsAfter_cons_of_none hnone]
      cases gap with
      | nil =>
          -- The piece would be the start tag and begin no element.
          obtain ⟨rfl, -⟩ := List.cons.inj hpieces
          rw [hnone] at ht
          cases ht
      | cons a gap =>
          obtain ⟨rfl, hrest⟩ := List.cons.inj hpieces
          have hcovers := ih (front ++ [a]) gap hrest
          rwa [List.append_assoc, List.singleton_append] at hcovers
  | component u pieces hu ih =>
      rw [elementsAfter_cons_of_some hu]
      have hcut : .tag u :: (elementPieces u pieces).1 ++ (elementPieces u pieces).2
          = gap ++ .tag t :: after := by
        rw [hpieces, List.cons_append, append_elementPieces]
      rcases append_eq_append_cons hcut with ⟨more, hinside⟩ | ⟨more, rfl, hbehind⟩
      · -- The start tag is that of the element or stands inside it.
        refine ⟨_, List.mem_cons_self, ?_, ?_⟩
        · simp only [sources_append, Text.utf8Length_append]
          omega
        · simp only [hinside, sources_append, sources_cons, sources_nil, List.append_nil,
            Text.utf8Length_append]
          omega
      · obtain ⟨e, he, hcovers⟩ :=
          ih (front ++ .tag u :: (elementPieces u pieces).1) more hbehind.symm
        rw [List.append_assoc front] at hcovers
        exact ⟨e, List.mem_cons_of_mem _ he, hcovers⟩

/-- Two elements of a document do not cover the same byte. -/
theorem eq_of_covers {html : String} {e e' : ComponentElement} {start stop : Nat}
    (he : e ∈ findComponents html) (he' : e' ∈ findComponents html) (hlt : start < stop)
    (hcovers : e.Covers start stop) (hcovers' : e'.Covers start stop) : e = e' := by
  have hapart : (findComponents html).Pairwise fun e e' => e.stop ≤ e'.start ∨ e'.stop ≤ e.start :=
    (pairwise_findComponents html).imp Or.inl
  have : Std.Symm fun e e' : ComponentElement => e.stop ≤ e'.start ∨ e'.stop ≤ e.start :=
    ⟨fun e e' h => h.symm⟩
  by_contra hne
  obtain ⟨hstart, hstop⟩ := hcovers
  obtain ⟨hstart', hstop'⟩ := hcovers'
  rcases hapart.forall he he' hne with h | h
  · omega
  · omega

/-- **The two listings agree**: the flat listing holds what the spans hold, one after another. Each
span begins with its own component, and each start tag of a component lies in exactly one span. -/
theorem extractComponents_spans (html : String) :
    extractComponents html
      = ((findComponents html).flatMap fun e => extractComponents (e.source html)) ∧
    (∀ e ∈ findComponents html, slice? html e.start e.stop = some (e.source html) ∧
      (extractComponents (e.source html)).head? = some e.component) ∧
    ∀ before t after, scan html.toList = before ++ .tag t :: after → t.closing = false →
      isComponentTag t.name = true →
      ∃! e, e ∈ findComponents html ∧ e.Covers (utf8Length (sources before))
        (utf8Length (sources (before ++ [.tag t]))) := by
  refine ⟨componentsOf_eq_flatMap [] _ rfl, ?_, ?_⟩
  · intro e he
    refine ⟨(safeSpan_of_mem he).slice_eq, ?_⟩
    obtain ⟨earlier, later, heq⟩ := List.append_of_mem he
    obtain ⟨before, t, inside, after, hat, -⟩ := exists_elementAt_scan heq
    rw [hat.extractComponents_source, hat.component_eq]
    rfl
  · intro before t after hscan hclosing hname
    have ht : (Piece.tag t).componentTag? = some t := by
      simp [Piece.componentTag?, hclosing, hname]
    obtain ⟨e, he, hcovers⟩ := exists_covers ht [] before after
    rw [← hscan, ← findComponents_eq] at he
    refine ⟨e, ⟨he, hcovers⟩, ?_⟩
    rintro e' ⟨he', hcovers'⟩
    refine eq_of_covers he' he ?_ hcovers' hcovers
    have hpos : 0 < utf8Length t.source := Text.utf8Length_pos (by simp [Tag.source])
    simp only [sources_append, sources_cons, sources_nil, Piece.source, Text.utf8Length_append,
      List.append_nil]
    omega

/-- A document in which an element begins inside another one and ends behind it, with an element
that is not closed behind both. -/
def overlappingPage : String := "<c-a><c-b></c-a></c-b><c-d>"

theorem extractComponents_spans_overlappingPage :
    (findComponents overlappingPage).map (fun e => e.source overlappingPage)
      = ["<c-a><c-b></c-a>", "<c-d>"] ∧
    extractComponents overlappingPage = ((findComponents overlappingPage).flatMap
      fun e => extractComponents (e.source overlappingPage)) ∧
    ∃! e, e ∈ findComponents overlappingPage ∧ e.Covers 5 10 := by
  obtain ⟨hlisting, -, hunique⟩ := extractComponents_spans overlappingPage
  exact ⟨by decide +kernel, hlisting,
    hunique [.tag ⟨false, "c-a".toList, []⟩] ⟨false, "c-b".toList, []⟩
      [.tag ⟨true, "c-a".toList, []⟩, .tag ⟨true, "c-b".toList, []⟩, .tag ⟨false, "c-d".toList, []⟩]
      (by decide +kernel) rfl (by decide)⟩

end SiteCompiler.Component
