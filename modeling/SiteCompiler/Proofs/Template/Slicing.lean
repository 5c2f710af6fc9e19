import SiteCompiler.Proofs.Component.Span
import SiteCompiler.Proofs.Template.Expansion
set_option autoImplicit false

/-! # Expansion by slices

A document can be expanded without its segments, by the bytes of its elements alone: a cursor runs
through the document, the slice between the cursor and the next element is copied, the element is
replaced, and the cursor goes to where it stops. Every slice that is taken on the way could fail.
`expandBySlices_eq` says that none does, and that the result is the expansion by segments.
-/

namespace SiteCompiler.Template

open Component
open Text (utf8Length slice?)

variable {ε : Type}

/-! ## Filling in spans -/

/-- The slice of a document. There is no value if the slice is not defined. -/
def sliceOf (html : String) (start stop : Nat) : OptionT (Except ε) String :=
  OptionT.mk (.ok (slice? html start stop))

/-- The document from `cursor` on with its elements filled in. -/
def fillSpans (html : String) (fill : ComponentElement → OptionT (Except ε) String) :
    Nat → List ComponentElement → OptionT (Except ε) String
  | cursor, [] => sliceOf html cursor html.utf8ByteSize
  | cursor, e :: es => do
      let filled ← fill e
      let gap ← sliceOf html cursor e.start
      let rest ← fillSpans html fill e.stop es
      return gap ++ filled ++ rest

theorem sliceOf_eq {html slice : String} {start stop : Nat}
    (h : slice? html start stop = some slice) :
    sliceOf (ε := ε) html start stop = pure slice := by
  rw [sliceOf, h]
  rfl

theorem lift_error (e : ε) {α : Type} {β : Type} (k : α → OptionT (Except ε) β) :
    OptionT.lift (.error e) >>= k = OptionT.lift (.error e) := rfl

theorem lift_ok {α : Type} (a : α) :
    OptionT.lift (.ok a : Except ε α) = (pure a : OptionT (Except ε) α) := rfl

theorem map_lift {α β : Type} (g : α → β) (x : Except ε α) :
    g <$> (OptionT.lift x : OptionT (Except ε) α) = OptionT.lift (x.map g) := by
  cases x with
  | error e => rfl
  | ok a => rfl

/-- One step of the cursor, if the slice in front of the element is defined. -/
theorem fillSpans_cons {html gap filled : String}
    {fill : ComponentElement → OptionT (Except ε) String} {cursor : Nat} {e : ComponentElement}
    (hfill : fill e = pure filled) (hgap : slice? html cursor e.start = some gap)
    (es : List ComponentElement) :
    fillSpans html fill cursor (e :: es)
      = (fun rest => gap ++ filled ++ rest) <$> fillSpans html fill e.stop es := by
  rw [fillSpans, hfill, sliceOf_eq hgap, pure_bind, pure_bind, map_eq_pure_bind]

section Segments

variable {f : Segment → Except ε String} {fill : ComponentRef → Except ε String} {html : String}

/-- Filling in spans, from any place on. The cursor stands behind `front`, the pieces of `gap` are
passed and not yet copied. -/
theorem fillSpans_elementsAfter (htext : ∀ source, f (.text source) = .ok (String.ofList source))
    (hcomponent : ∀ ref source, f (.component ref source) = fill ref)
    (front gap pieces : List Piece) (hhtml : scan html.toList = front ++ gap ++ pieces) :
    fillSpans html (fun e => OptionT.lift (fill e.component)) (utf8Length (sources front))
        (elementsAfter (front ++ gap) pieces)
      = OptionT.lift (((segmentsOf pieces).mapM f).map
          fun parts => String.ofList (sources gap) ++ String.join parts) := by
  -- Text is passed and makes the gap longer; an element moves the cursor, and the gap begins anew.
  induction pieces using segmentsOf_induction generalizing front gap with
  | nil =>
      have hsize : html.utf8ByteSize = utf8Length (sources (front ++ gap)) := by
        rw [List.append_nil] at hhtml
        rw [← hhtml, sources_scan, Text.utf8Length_toList]
      rw [elementsAfter_nil, fillSpans, hsize, sliceOf_eq (slice?_sources hhtml), segmentsOf,
        List.mapM_nil]
      have hjoin : String.ofList (sources gap) = String.ofList (sources gap) ++ String.join [] := by
        rw [String.join_nil, String.append_empty]
      exact congrArg (fun text => OptionT.lift (Except.ok text)) hjoin
  | other piece pieces hnone ih =>
      have hhtml' : scan html.toList = front ++ (gap ++ [piece]) ++ pieces := by
        rw [hhtml]
        simp
      rw [elementsAfter_cons_of_none hnone, List.append_assoc, ih front (gap ++ [piece]) hhtml',
        segmentsOf_cons_of_none hnone, Sequence.mapM_cons_of_ok (htext _)]
      cases (segmentsOf pieces).mapM f with
      | error e => rfl
      | ok parts =>
          have hjoin : String.ofList (sources (gap ++ [piece])) ++ String.join parts
              = String.ofList (sources gap)
                ++ String.join (String.ofList piece.source :: parts) := by
            rw [sources_append, sources_cons, sources_nil, List.append_nil, String.ofList_append,
              String.join_cons, String.append_assoc]
          exact congrArg (fun text => OptionT.lift (Except.ok text)) hjoin
  | component t pieces ht ih =>
      rw [elementsAfter_cons_of_some ht, segmentsOf_cons_of_some ht]
      cases hfill : fill t.component with
      | error e =>
          -- No slice is taken behind an element that cannot be filled in.
          rw [Sequence.mapM_cons_of_error ((hcomponent _ _).trans hfill), fillSpans]
          show OptionT.lift (fill t.component) >>= _ = _
          rw [hfill, lift_error]
          rfl
      | ok filled =>
          have hrest : scan html.toList = front ++ gap ++ .tag t :: (elementPieces t pieces).1 ++ []
              ++ (elementPieces t pieces).2 := by
            rw [hhtml, List.append_nil, List.append_assoc, List.append_assoc, List.cons_append,
              append_elementPieces]
            simp
          have hfilled : OptionT.lift (fill t.component)
              = (pure filled : OptionT (Except ε) String) := by
            rw [hfill, lift_ok]
          have hlater := ih _ [] hrest
          rw [List.append_nil] at hlater
          rw [fillSpans_cons hfilled (slice?_sources hhtml), hlater, map_lift,
            Sequence.mapM_cons_of_ok ((hcomponent _ _).trans hfill)]
          cases (segmentsOf (elementPieces t pieces).2).mapM f with
          | error e => rfl
          | ok parts =>
              have hjoin : String.ofList (sources gap) ++ filled
                  ++ (String.ofList (sources []) ++ String.join parts)
                  = String.ofList (sources gap) ++ String.join (filled :: parts) := by
                rw [sources_nil, String.ofList_nil, String.empty_append, String.join_cons,
                  String.append_assoc]
              exact congrArg (fun text => OptionT.lift (Except.ok text)) hjoin

end Segments

/-- Elements that are filled in with their own slices leave the text as it is. -/
theorem fillSpans_slices {html : String} {cursor : Nat} {es : List ComponentElement}
    (hcursor : String.Pos.Raw.IsValid html ⟨cursor⟩) (hsafe : ∀ e ∈ es, SafeSpan html e)
    (hafter : ∀ e ∈ es, cursor ≤ e.start) (hpair : es.Pairwise fun e e' => e.stop ≤ e'.start) :
    fillSpans (ε := ε) html (fun e => sliceOf html e.start e.stop) cursor es
      = sliceOf html cursor html.utf8ByteSize := by
  induction es generalizing cursor with
  | nil => rfl
  | cons e es ih =>
      have he := hsafe e List.mem_cons_self
      obtain ⟨hstops, hpair'⟩ := List.pairwise_cons.1 hpair
      have hrest := ih he.stop_isValid (fun e' he' => hsafe e' (List.mem_cons_of_mem e he'))
        hstops hpair'
      obtain ⟨gap, hgap⟩ :=
        Text.exists_slice? hcursor he.start_isValid (hafter e List.mem_cons_self)
      obtain ⟨rest, hback⟩ := Text.exists_slice? he.stop_isValid
        (String.Pos.Raw.isValid_rawEndPos (s := html)) he.stop_le
      have hwhole := Text.slice?_trans (Text.slice?_trans hgap he.slice_eq) hback
      rw [fillSpans_cons (sliceOf_eq he.slice_eq) hgap, hrest, sliceOf_eq hback, sliceOf_eq hwhole,
        map_pure]

/-! ## Expansion -/

/-- The expansion of a document below the components of `chain` by the spans of its elements. -/
def expandBySlices (tree : FileTree) (templatesDir : Path) :
    Nat → List String → String → OptionT (Except CompileError) String
  | 0, _, _ => OptionT.lift (.error .tooDeep)
  | depth + 1, chain, html =>
      fillSpans html (fun e => do
        OptionT.lift (enterUnlessIn chain e.component)
        let template ← OptionT.lift (load tree templatesDir e.component)
        expandBySlices tree templatesDir depth (chain ++ [e.component.componentName]) template)
      0 (findComponents html)

/-- **No slice of an expansion fails**: the expansion by slices always has a value, which is that
of the expansion by segments. -/
theorem expandBySlices_eq (tree : FileTree) (templatesDir : Path) (depth : Nat)
    (chain : List String) (html : String) :
    expandBySlices tree templatesDir depth chain html
      = OptionT.lift (expandWithin tree templatesDir depth chain html) := by
  induction depth generalizing chain html with
  | zero => rfl
  | succ depth ih =>
      have hfill : ∀ e : ComponentElement, (do
          OptionT.lift (enterUnlessIn chain e.component)
          let template ← OptionT.lift (load tree templatesDir e.component)
          expandBySlices tree templatesDir depth (chain ++ [e.component.componentName]) template)
          = OptionT.lift (fillSegment tree templatesDir (enterUnlessIn chain)
              (fun ref template => expandWithin tree templatesDir depth
                (chain ++ [ref.componentName]) template) (.component e.component [])) := by
        intro e
        rw [fillSegment]
        cases enterUnlessIn chain e.component with
        | error err => rfl
        | ok _ =>
            cases load tree templatesDir e.component with
            | error err => rfl
            | ok template => exact ih _ _
      have hwhole := fillSpans_elementsAfter
        (f := fillSegment tree templatesDir (enterUnlessIn chain)
          (fun ref template => expandWithin tree templatesDir depth
            (chain ++ [ref.componentName]) template))
        (fun _ => rfl) (fun _ _ => rfl) [] [] (scan html.toList) rfl
      simp only [sources_nil, String.ofList_nil, String.empty_append] at hwhole
      rw [expandBySlices, funext hfill, expandWithin_succ]
      exact hwhole

/-- **Documents can be cut at the spans of their elements**: each span is safe to cut at, spans
stand in the order of the document and do not overlap, an expansion by slices takes no slice that
is not defined, and the text outside the spans and the slices, put together, are the document. -/
theorem findComponents_sliceable (html : String) :
    (∀ e ∈ findComponents html, SafeSpan html e) ∧
    ((findComponents html).Pairwise fun e e' => e.stop ≤ e'.start) ∧
    (∀ tree templatesDir depth chain,
      (expandBySlices tree templatesDir depth chain html).run
        = (expandWithin tree templatesDir depth chain html).map some) ∧
    (fillSpans (ε := CompileError) html (fun e => sliceOf html e.start e.stop) 0
      (findComponents html)).run = .ok (some html) := by
  have hsafe : ∀ e ∈ findComponents html, SafeSpan html e := fun e he => safeSpan_of_mem he
  have hpair := pairwise_findComponents html
  refine ⟨hsafe, hpair, ?_, ?_⟩
  · intro tree templatesDir depth chain
    rw [expandBySlices_eq, OptionT.run_lift]
    cases expandWithin tree templatesDir depth chain html with
    | error e => rfl
    | ok out => rfl
  · rw [fillSpans_slices String.Pos.Raw.isValid_zero hsafe (fun e _ => Nat.zero_le _) hpair,
      sliceOf_eq (Text.slice?_all html)]
    rfl

/-- A document with an element around another one of its name and with an unclosed element, between
characters of two bytes. -/
def umlautPage : String := "é<c-a x='>'>ü<C-A/></c-A >ß<c-b>"

theorem findComponents_sliceable_umlautPage :
    (findComponents umlautPage).map (fun e => (e.start, e.stop)) = [(2, 28), (30, 35)] ∧
    SafeSpan umlautPage ⟨⟨"c-a", "a", [("x", ">")]⟩, 2, 28⟩ ∧
    SafeSpan umlautPage ⟨⟨"c-b", "b", []⟩, 30, 35⟩ ∧
    (fillSpans (ε := CompileError) umlautPage (fun e => sliceOf umlautPage e.start e.stop) 0
      (findComponents umlautPage)).run = .ok (some umlautPage) := by
  obtain ⟨hsafe, -, -, hslices⟩ := findComponents_sliceable umlautPage
  exact ⟨by decide +kernel, hsafe _ (by decide +kernel), hsafe _ (by decide +kernel), hslices⟩

end SiteCompiler.Template
