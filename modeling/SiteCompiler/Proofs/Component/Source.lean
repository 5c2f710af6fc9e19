import SiteCompiler.Component.Element
import SiteCompiler.Proofs.Text.Search
import Mathlib.Data.List.Basic
import Mathlib.Data.List.TakeWhile
import Mathlib.Data.Nat.Init
set_option autoImplicit false

/-! # The pieces of a document are the document

`scan` cuts a document and drops nothing: the sources of its pieces, put together, are the document
(`sources_scan`). On the way the three steps of a scan get equations of their own, `scan_plain`,
`scan_lone` and `scan_construct`, and an induction principle with one case for each of them.
-/

namespace SiteCompiler.Component

/-! ## Sources -/

@[simp] theorem sources_nil : sources [] = [] := rfl

@[simp] theorem sources_cons (piece : Piece) (pieces : List Piece) :
    sources (piece :: pieces) = piece.source ++ sources pieces := by
  simp [sources]

@[simp] theorem sources_append (as bs : List Piece) :
    sources (as ++ bs) = sources as ++ sources bs := by
  simp [sources]

@[simp] theorem sources_consText (cs : List Char) (pieces : List Piece) :
    sources (consText cs pieces) = cs ++ sources pieces := by
  unfold consText
  split
  · rfl
  · simp [Piece.source]
  · simp [Piece.source]

theorem consText_append (as bs : List Char) (pieces : List Piece) :
    consText (as ++ bs) pieces = consText as (consText bs pieces) := by
  cases as with
  | nil => rfl
  | cons a as =>
      cases bs with
      | nil => simp [consText]
      | cons b bs =>
          cases pieces with
          | nil => simp [consText]
          | cons piece pieces => cases piece <;> simp [consText]

/-! ## The parts of a construct -/

theorem append_of_tagName? {cs name rest : List Char} (h : tagName? cs = some (name, rest)) :
    name ++ rest = cs := by
  cases cs with
  | nil => cases h
  | cons c cs =>
      simp only [tagName?] at h
      split at h
      · cases h
        simp
      · cases h

theorem append_of_tagHead? {cs name rest : List Char} {closing : Bool}
    (h : tagHead? cs = some (closing, name, rest)) :
    (if closing then ['/'] else []) ++ name ++ rest = cs := by
  unfold tagHead? at h
  split at h
  · obtain ⟨⟨a, b⟩, hname, heq⟩ := Option.map_eq_some_iff.1 h
    cases heq
    simp [append_of_tagName? hname]
  · obtain ⟨⟨a, b⟩, hname, heq⟩ := Option.map_eq_some_iff.1 h
    cases heq
    simp [append_of_tagName? hname]

theorem append_of_tagRest? : ∀ {quote : Option Char} {cs inside rest : List Char},
    tagRest? quote cs = some (inside, rest) → inside ++ '>' :: rest = cs
  | quote, [], _, _, h => by cases quote <;> cases h
  | some quote, c :: cs, _, _, h => by
      obtain ⟨⟨a, b⟩, hrest, heq⟩ := Option.map_eq_some_iff.1 h
      cases heq
      simp [append_of_tagRest? hrest]
  | none, c :: cs, _, _, h => by
      simp only [tagRest?] at h
      split at h
      · next hc =>
          cases h
          rw [hc]
          rfl
      · obtain ⟨⟨a, b⟩, hrest, heq⟩ := Option.map_eq_some_iff.1 h
        cases heq
        simp [append_of_tagRest? hrest]

theorem sources_withRawText (t : Tag) (cs : List Char) :
    sources (withRawText t cs).1 ++ (withRawText t cs).2 = t.source ++ cs := by
  unfold withRawText
  split
  · split
    · next body rest hcut => simp [Piece.source, Text.append_of_breakBefore? hcut]
    · simp [Piece.source]
  · simp [Piece.source]

/-- A construct takes up exactly the characters between its `<` and the rest. -/
theorem sources_construct? {cs rest : List Char} {pieces : List Piece}
    (h : construct? cs = some (pieces, rest)) : sources pieces ++ rest = '<' :: cs := by
  unfold construct? at h
  split at h
  · next inner hpre =>
      have hcs := List.append_eq_of_isPrefixOf?_eq_some hpre
      split at h
      · next body after hcut =>
          cases h
          rw [← hcs, ← Text.append_of_breakOn? hcut]
          simp [Piece.source]
      · cases h
        simp [Piece.source]
  · split at h
    · cases h
    · next closing name after hhead =>
        have hcs := append_of_tagHead? hhead
        split at h
        · next inside later hrest =>
            have hsource := sources_withRawText ⟨closing, name, inside⟩ later
            rw [Option.some.inj h] at hsource
            rw [hsource, ← hcs, ← append_of_tagRest? hrest]
            simp [Tag.source]
        · cases h
          simp [Piece.source]

/-! ## The steps of a scan -/

theorem dropWhile_append_lt {before : List Char} (h : '<' ∉ before) (after : List Char) :
    (before ++ '<' :: after).dropWhile (· ≠ '<') = '<' :: after :=
  Text.dropWhile_append_run (fun c hc => by simpa using fun heq : c = '<' => h (heq ▸ hc))
    (by simp)

theorem takeWhile_append_lt {before : List Char} (h : '<' ∉ before) (after : List Char) :
    (before ++ '<' :: after).takeWhile (· ≠ '<') = before :=
  Text.takeWhile_append_run (fun c hc => by simpa using fun heq : c = '<' => h (heq ▸ hc))
    (by simp)

/-- A text either has no `<` or is cut at the first one. -/
theorem lt_cases (cs : List Char) :
    '<' ∉ cs ∨ ∃ before after, '<' ∉ before ∧ cs = before ++ '<' :: after := by
  by_cases h : '<' ∈ cs
  · obtain ⟨before, after, heq, hbefore⟩ := List.eq_append_cons_of_mem h
    exact Or.inr ⟨before, after, hbefore, heq⟩
  · exact Or.inl h

theorem scan_plain {cs : List Char} (h : '<' ∉ cs) : scan cs = consText cs [] := by
  have hdrop : cs.dropWhile (· ≠ '<') = [] := by
    rw [List.dropWhile_eq_nil_iff]
    intro c hc
    simpa using fun heq : c = '<' => h (heq ▸ hc)
  rw [scan]
  split
  · rfl
  · next lt after hlt =>
      rw [hdrop] at hlt
      cases hlt

theorem scan_lone {before after : List Char} (h : '<' ∉ before) (hc : construct? after = none) :
    scan (before ++ '<' :: after) = consText (before ++ ['<']) (scan after) := by
  rw [scan, takeWhile_append_lt h]
  split
  · next hnil =>
      rw [dropWhile_append_lt h] at hnil
      cases hnil
  · next lt rest hlt =>
      rw [dropWhile_append_lt h] at hlt
      cases hlt
      split
      · rfl
      · next pieces later hsome =>
          rw [hc] at hsome
          cases hsome

theorem scan_construct {before after rest : List Char} {pieces : List Piece} (h : '<' ∉ before)
    (hc : construct? after = some (pieces, rest)) :
    scan (before ++ '<' :: after) = consText before (pieces ++ scan rest) := by
  rw [scan, takeWhile_append_lt h]
  split
  · next hnil =>
      rw [dropWhile_append_lt h] at hnil
      cases hnil
  · next lt later hlt =>
      rw [dropWhile_append_lt h] at hlt
      cases hlt
      split
      · next hnone =>
          rw [hc] at hnone
          cases hnone
      · next pieces' rest' hsome =>
          rw [hc] at hsome
          cases hsome
          rfl

theorem scan_cons_construct {after rest : List Char} {pieces : List Piece}
    (hc : construct? after = some (pieces, rest)) :
    scan ('<' :: after) = pieces ++ scan rest :=
  scan_construct List.not_mem_nil hc

/-- Induction along a scan: the text without `<`, a `<` that begins nothing, and a construct. -/
theorem scan_induction {motive : List Char → Prop}
    (plain : ∀ cs, '<' ∉ cs → motive cs)
    (lone : ∀ before after, '<' ∉ before → construct? after = none → motive after →
      motive (before ++ '<' :: after))
    (construct : ∀ before after pieces rest, '<' ∉ before →
      construct? after = some (pieces, rest) → motive rest → motive (before ++ '<' :: after))
    (cs : List Char) : motive cs := by
  induction hn : cs.length using Nat.strong_induction_on generalizing cs with
  | _ n ih =>
      rcases lt_cases cs with hplain | ⟨before, after, hbefore, rfl⟩
      · exact plain cs hplain
      · simp only [List.length_append, List.length_cons] at hn
        cases hc : construct? after with
        | none => exact lone before after hbefore hc (ih _ (by omega) after rfl)
        | some cut =>
            obtain ⟨pieces, rest⟩ := cut
            have hrest := length_construct? hc
            exact construct before after pieces rest hbefore hc (ih _ (by omega) rest rfl)

/-- **Nothing is dropped**: the sources of the pieces of a document are the document. -/
theorem sources_scan (cs : List Char) : sources (scan cs) = cs := by
  induction cs using scan_induction with
  | plain cs h => simp [scan_plain h]
  | lone before after h hc ih => simp [scan_lone h hc, ih]
  | construct before after pieces rest h hc ih =>
      rw [scan_construct h hc, sources_consText, sources_append, ih, sources_construct? hc]

/-! ## Segments -/

theorem append_elementPieces (t : Tag) (pieces : List Piece) :
    (elementPieces t pieces).1 ++ (elementPieces t pieces).2 = pieces := by
  unfold elementPieces
  split
  · rfl
  · cases h : splitAtEnd? t.name 0 pieces with
    | none => rfl
    | some cut => exact append_of_splitAtEnd? h

theorem source_of_componentTag? {piece : Piece} {t : Tag} (h : piece.componentTag? = some t) :
    piece = .tag t ∧ t.closing = false ∧ isComponentTag t.name = true := by
  cases piece with
  | tag t' =>
      simp only [Piece.componentTag?] at h
      split at h
      · next hc =>
          cases h
          simpa using hc
      · cases h
  | _ => cases h

theorem segmentsOf_cons_of_none {piece : Piece} (h : piece.componentTag? = none)
    (pieces : List Piece) :
    segmentsOf (piece :: pieces) = .text piece.source :: segmentsOf pieces := by
  rw [segmentsOf, h]

theorem segmentsOf_cons_of_some {piece : Piece} {t : Tag} (h : piece.componentTag? = some t)
    (pieces : List Piece) : segmentsOf (piece :: pieces)
      = .component t.component (t.source ++ sources (elementPieces t pieces).1)
        :: segmentsOf (elementPieces t pieces).2 := by
  rw [segmentsOf, h]

/-- Induction along the cut into segments: a piece that begins no component element, and a component
element with the pieces inside it. -/
theorem segmentsOf_induction {motive : List Piece → Prop} (nil : motive [])
    (other : ∀ piece pieces, piece.componentTag? = none → motive pieces →
      motive (piece :: pieces))
    (component : ∀ t pieces, (Piece.tag t).componentTag? = some t →
      motive (elementPieces t pieces).2 → motive (.tag t :: pieces))
    (pieces : List Piece) : motive pieces := by
  induction pieces using segmentsOf.induct with
  | case1 => exact nil
  | case2 piece pieces hnone ih => exact other piece pieces hnone ih
  | case3 piece pieces t ht cut ih =>
      obtain ⟨rfl, -⟩ := source_of_componentTag? ht
      exact component t pieces ht ih

/-- The segments of pieces cover what the pieces cover. -/
theorem flatMap_segmentsOf (pieces : List Piece) :
    (segmentsOf pieces).flatMap Segment.source = sources pieces := by
  induction pieces using segmentsOf_induction with
  | nil => simp [segmentsOf]
  | other piece pieces hnone ih => simp [segmentsOf_cons_of_none hnone, Segment.source, ih]
  | component t pieces ht ih =>
      have happ := congrArg sources (append_elementPieces t pieces)
      rw [sources_append] at happ
      rw [segmentsOf_cons_of_some ht]
      simp only [List.flatMap_cons, Segment.source, sources_cons, List.append_assoc]
      rw [ih, happ]
      rfl

/-- Cutting a document into segments drops nothing. -/
theorem flatMap_segments (html : String) :
    (segments html).flatMap Segment.source = html.toList := by
  rw [segments, flatMap_segmentsOf, sources_scan]

/-! ## The components among pieces -/

/-- The components whose start tags are among pieces. -/
def componentsOf (pieces : List Piece) : List ComponentRef :=
  pieces.filterMap fun piece => piece.componentTag?.map Tag.component

theorem extractComponents_eq (html : String) :
    extractComponents html = componentsOf (scan html.toList) := rfl

theorem componentsOf_append (as bs : List Piece) :
    componentsOf (as ++ bs) = componentsOf as ++ componentsOf bs :=
  List.filterMap_append

theorem componentsOf_cons_of_none {piece : Piece} (h : piece.componentTag? = none)
    (pieces : List Piece) : componentsOf (piece :: pieces) = componentsOf pieces := by
  simp [componentsOf, h]

theorem componentsOf_cons_of_some {t : Tag} (h : (Piece.tag t).componentTag? = some t)
    (pieces : List Piece) :
    componentsOf (.tag t :: pieces) = t.component :: componentsOf pieces := by
  simp [componentsOf, h]

end SiteCompiler.Component
