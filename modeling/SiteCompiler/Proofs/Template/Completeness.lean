import SiteCompiler.Proofs.Component.Splice
import SiteCompiler.Proofs.Template.Reading
set_option autoImplicit false

/-! # Expanded documents have no components

Where document and templates are self-contained, so is what their expansion gives: the pieces of the
templates stand between those of the document, and nothing is read differently for its neighbours.
No piece of the result begins a component element, since those of the document are replaced and
their replacements have none (`finished_of_expandWithin`). Expanding the result again therefore
changes nothing (`Finished.compile_eq`).
-/

namespace SiteCompiler.Template

open Component

variable {tree : FileTree} {templatesDir : Path}

/-- A self-contained document without components. -/
def Finished (html : String) : Prop :=
  ∃ pieces, Settled pieces ∧ pieces.filterMap Piece.componentTag? = [] ∧
    sources pieces = html.toList

theorem sources_splice (as bs : List Piece) : sources (splice as bs) = sources as ++ sources bs := by
  induction as with
  | nil => rfl
  | cons piece as ih =>
      have hbefore : sources (piece.before (splice as bs))
          = piece.source ++ sources (splice as bs) := by
        cases piece with
        | text cs => exact sources_consText cs _
        | _ => rfl
      rw [splice_cons, hbefore, ih, sources_cons, List.append_assoc]

/-! ## Filling in -/

/-- What stands in place of a segment of an expanded document. -/
def Replaces : Segment → String → Prop
  | .text source, part => part.toList = source
  | .component _ _, part => Finished part

/-- The pieces of a filled document are its own pieces, and those of an expanded template for each
component element. The cases are those of `Settled`; behind a component element stands a shorter
settled list. -/
theorem exists_pieces_of_replaces {pieces : List Piece} (hpieces : Settled pieces)
    {parts : List String} (hparts : List.Forall₂ Replaces (segmentsOf pieces) parts) :
    ∃ filled, Settled filled ∧ filled.filterMap Piece.componentTag? = [] ∧
      sources filled = parts.flatMap String.toList := by
  induction hlen : pieces.length using Nat.strongRecOn generalizing pieces parts with
  | ind n ih =>
      subst hlen
      cases hpieces with
      | nil =>
          rw [segmentsOf, List.forall₂_nil_left_iff] at hparts
          subst hparts
          exact ⟨[], .nil, rfl, rfl⟩
      | @text cs pieces _ hplain _ hrest =>
          rw [segmentsOf_cons_of_none rfl, List.forall₂_cons_left_iff] at hparts
          obtain ⟨part, parts, hpart, hparts, rfl⟩ := hparts
          obtain ⟨filled, hsettled, hnone, hsources⟩ := ih _ (Nat.lt_succ_self _) hrest hparts rfl
          refine ⟨consText cs filled, hsettled.consText hplain, ?_, ?_⟩
          · exact (filterMap_before (.text cs) filled).trans hnone
          · rw [sources_consText, hsources, List.flatMap_cons, hpart, Piece.source]
      | @comment body pieces hbody hrest =>
          rw [segmentsOf_cons_of_none rfl, List.forall₂_cons_left_iff] at hparts
          obtain ⟨part, parts, hpart, hparts, rfl⟩ := hparts
          obtain ⟨filled, hsettled, hnone, hsources⟩ := ih _ (Nat.lt_succ_self _) hrest hparts rfl
          refine ⟨_, .comment hbody hsettled, hnone, ?_⟩
          rw [sources_cons, hsources, List.flatMap_cons, hpart]
      | @tag t pieces hread hraw hrest =>
          cases ht : (Piece.tag t).componentTag? with
          | none =>
              rw [segmentsOf_cons_of_none ht, List.forall₂_cons_left_iff] at hparts
              obtain ⟨part, parts, hpart, hparts, rfl⟩ := hparts
              obtain ⟨filled, hsettled, hnone, hsources⟩ :=
                ih _ (Nat.lt_succ_self _) hrest hparts rfl
              refine ⟨_, .tag hread hraw hsettled, ?_, ?_⟩
              · rw [List.filterMap_cons, ht]
                exact hnone
              · rw [sources_cons, hsources, List.flatMap_cons, hpart]
          | some t' =>
              -- The element is replaced as a whole; the induction goes on behind it.
              obtain ⟨heq, -, -⟩ := source_of_componentTag? ht
              cases heq
              rw [segmentsOf_cons_of_some ht, List.forall₂_cons_left_iff] at hparts
              obtain ⟨part, parts, ⟨inner, hinner, hinnerNone, hinnerSources⟩, hparts, rfl⟩ :=
                hparts
              have hafter : Settled (elementPieces t pieces).2 :=
                (Settled.tag hread hraw hrest).elementPieces hraw
              have hshort : (elementPieces t pieces).2.length < (Piece.tag t :: pieces).length :=
                Nat.lt_succ_of_le (length_elementPieces t pieces)
              obtain ⟨filled, hsettled, hnone, hsources⟩ := ih _ hshort hafter hparts rfl
              refine ⟨splice inner filled, hinner.splice hsettled, ?_, ?_⟩
              · rw [filterMap_splice, hinnerNone, hnone, List.append_nil]
              · rw [sources_splice, hinnerSources, hsources, List.flatMap_cons]
      | @rawText t closer body pieces hread hraw hcloser hclosing hbody hrest =>
          -- Neither tag is a component's, so all three pieces stay.
          have ht := componentTag?_of_opensRawText hraw
          have hc := componentTag?_of_closing hclosing
          rw [segmentsOf_cons_of_none ht, segmentsOf_cons_of_none rfl, segmentsOf_cons_of_none hc]
            at hparts
          simp only [List.forall₂_cons_left_iff] at hparts
          obtain ⟨opened, _, hopened, ⟨raw, _, hrawPart, ⟨closed, parts, hclosed, hparts, rfl⟩, rfl⟩,
            rfl⟩ := hparts
          have hshort :
              pieces.length < (.tag t :: .rawText body :: .tag closer :: pieces).length := by
            simp only [List.length_cons]
            omega
          obtain ⟨filled, hsettled, hnone, hsources⟩ := ih _ hshort hrest hparts rfl
          refine ⟨_, .rawText hread hraw hcloser hclosing hbody hsettled, ?_, ?_⟩
          · rw [List.filterMap_cons, ht, List.filterMap_cons, List.filterMap_cons, hc]
            exact hnone
          · simp only [sources_cons, hsources, List.flatMap_cons]
            rw [hopened, hrawPart, hclosed]

/-- The induction is on the depth: the templates are expanded to finished documents one level down,
so each segment is replaced by what `Replaces` asks for. -/
theorem finished_of_expandWithin {depth : Nat} {chain : List String} {html out : String}
    (h : expandWithin tree templatesDir depth chain html = .ok out) (hhtml : SelfContained html)
    (hreads : ∀ template, Reads tree templatesDir depth chain html template →
      SelfContained template) : Finished out := by
  induction depth generalizing chain html out with
  | zero => cases h
  | succ depth ih =>
      rw [expandWithin_succ] at h
      obtain ⟨parts, hparts, rfl⟩ := fillDocument_eq_ok_iff.1 h
      have hreplaces : List.Forall₂ Replaces (segments html) parts := by
        refine Sequence.forall₂_of_mapM hparts ?_
        intro before segment after filled part hsegments hbefore hpart
        cases segment with
        | text source =>
            cases hpart
            exact String.toList_ofList
        | component ref source =>
            obtain ⟨henter, template, hload, hexpand⟩ := fillSegment_component_eq_ok hpart
            have henters : Enters tree templatesDir depth chain html ref template :=
              ⟨before, source, after, filled, hsegments, hbefore, henter, hload⟩
            exact ih hexpand (hreads template (.here henters))
              fun inner hinner => hreads inner (.inside henters hinner)
      obtain ⟨filled, hsettled, hnone, hsources⟩ :=
        exists_pieces_of_replaces (settled_scan html.toList hhtml) hreplaces
      exact ⟨filled, hsettled, hnone, by rw [hsources, String.toList_join]⟩

/-! ## Finished documents -/

theorem segmentsOf_of_no_component {pieces : List Piece}
    (h : pieces.filterMap Piece.componentTag? = []) :
    segmentsOf pieces = pieces.map fun piece => .text piece.source := by
  induction pieces with
  | nil => rw [segmentsOf, List.map_nil]
  | cons piece pieces ih =>
      rw [List.filterMap_cons] at h
      cases hnone : piece.componentTag? with
      | some t =>
          rw [hnone] at h
          cases h
      | none =>
          rw [hnone] at h
          rw [segmentsOf_cons_of_none hnone, List.map_cons, ih h]

namespace Finished

theorem selfContained {html : String} (h : Finished html) : SelfContained html := by
  obtain ⟨pieces, hsettled, -, hsources⟩ := h
  rw [SelfContained, ← hsources, hsettled.scan_sources]
  exact hsettled.isComplete

theorem extractComponents_eq {html : String} (h : Finished html) : extractComponents html = [] := by
  obtain ⟨pieces, hsettled, hnone, hsources⟩ := h
  rw [extractComponents, ← List.map_filterMap, ← hsources, hsettled.scan_sources, hnone]
  rfl

/-- A finished document is its own expansion. -/
theorem compile_eq {html : String} (h : Finished html) :
    compile tree templatesDir html = .ok html := by
  obtain ⟨pieces, hsettled, hnone, hsources⟩ := h
  have hsegments : segments html = pieces.map fun piece => .text piece.source := by
    rw [segments, ← hsources, hsettled.scan_sources, segmentsOf_of_no_component hnone]
  rw [compile, depthBound, expandWithin_succ]
  refine fillDocument_eq_ok_iff.2 ⟨pieces.map fun piece => String.ofList piece.source, ?_, ?_⟩
  · rw [hsegments, Sequence.mapM_eq_ok_iff, List.forall₂_map_left_iff, List.forall₂_map_right_iff]
    exact List.forall₂_same.2 fun piece _ => rfl
  · apply String.toList_injective
    rw [String.toList_join, ← hsources, List.flatMap_map]
    simp only [String.toList_ofList]
    rfl

end Finished

/-- **Expansion is complete and idempotent.** If a self-contained document is expanded and every
template that is read is self-contained, the result is self-contained, has no component element
left, and expands to itself. -/
theorem compile_complete (tree : FileTree) (templatesDir : Path) (html out : String)
    (hhtml : SelfContained html)
    (hreads : ∀ template, Reads tree templatesDir (depthBound tree html) [] html template →
      SelfContained template)
    (h : compile tree templatesDir html = .ok out) :
    SelfContained out ∧ extractComponents out = [] ∧ compile tree templatesDir out = .ok out := by
  have hfinished : Finished out := finished_of_expandWithin h hhtml hreads
  exact ⟨hfinished.selfContained, hfinished.extractComponents_eq, hfinished.compile_eq⟩

/-- A tree with one template. -/
def boldTree : FileTree where
  entries := [(["x.html"], .file "<b>x</b>".toUTF8)]

theorem compile_boldTree :
    compile boldTree ⟨""⟩ "<p><c-x></c-x></p>" = .ok "<p><b>x</b></p>" := by
  have hpath : (path ⟨""⟩ "x").segments = ["x.html"] := by decide +kernel
  have hload : load boldTree ⟨""⟩ ⟨"c-x", "x", []⟩ = .ok "<b>x</b>" :=
    load_of_locate (fun ⟨_, h, _⟩ => nomatch h)
      (FileTree.locate_of_segments hpath (by decide +kernel) rfl) rfl
  have hsegments : segments "<p><c-x></c-x></p>" = [.text "<p>".toList,
      .component ⟨"c-x", "x", []⟩ "<c-x></c-x>".toList, .text "</p>".toList] := by
    decide +kernel
  have hbold : segments "<b>x</b>" = [.text "<b>".toList, .text ['x'], .text "</b>".toList] := by
    decide +kernel
  have hinner (depth : Nat) :
      expandWithin boldTree ⟨""⟩ (depth + 1) ["x"] "<b>x</b>" = .ok "<b>x</b>" := by
    rw [expandWithin_succ]
    refine fillDocument_eq_ok_iff.2 ⟨["<b>", "x", "</b>"], ?_, rfl⟩
    rw [hbold]
    rfl
  rw [compile, depthBound, expandWithin_succ]
  refine fillDocument_eq_ok_iff.2 ⟨["<p>", "<b>x</b>", "</p>"], ?_, rfl⟩
  rw [hsegments, Sequence.mapM_eq_ok_iff]
  refine .cons rfl (.cons ?_ (.cons rfl .nil))
  simp only [fillSegment, hload]
  exact hinner _

theorem compile_complete_boldTree :
    SelfContained "<p><b>x</b></p>" ∧ extractComponents "<p><b>x</b></p>" = [] ∧
      compile boldTree ⟨""⟩ "<p><b>x</b></p>" = .ok "<p><b>x</b></p>" := by
  refine compile_complete boldTree ⟨""⟩ "<p><c-x></c-x></p>" _ (by decide +kernel) ?_
    compile_boldTree
  intro template hreads
  have htexts : ∀ text ∈ boldTree.texts, SelfContained text := by decide +kernel
  exact htexts template hreads.mem_texts

end SiteCompiler.Template
