import SiteCompiler.Proofs.Component.Locality
set_option autoImplicit false

/-! # Documents that can be put together

A document is *self-contained* if a scan reads it to its end without meeting something unclosed,
and none of its plain text ends in what may begin a construct. Such documents can be put one behind
the other: the scan of the whole is made of the scans of the parts.

The scans of self-contained documents are described from inside, by the list of pieces alone
(`Settled`): `settled_scan` and `Settled.scan_sources` say that this description is exact. What can
be done to a list of pieces without leaving it then follows by induction on `Settled`.
-/

namespace SiteCompiler.Component

/-- Whether a piece ends where it stands, whatever follows it. -/
def Piece.isComplete : Piece → Bool
  | .text source => !endsOpen source
  | .unclosed _ => false
  | _ => true

/-- A document that is scanned to its end without meeting anything unclosed, and in which no plain
text ends in what may be the beginning of a construct. -/
def SelfContained (html : String) : Prop :=
  ∀ piece ∈ scan html.toList, piece.isComplete = true

instance (html : String) : Decidable (SelfContained html) :=
  inferInstanceAs (Decidable (∀ piece ∈ scan html.toList, piece.isComplete = true))

/-- Whether a piece has an end. -/
def Piece.isClosed : Piece → Bool
  | .unclosed _ => false
  | _ => true

/-- A document that is scanned to its end without meeting anything unclosed. -/
def Closed (html : String) : Prop :=
  ∀ piece ∈ scan html.toList, piece.isClosed = true

instance (html : String) : Decidable (Closed html) :=
  inferInstanceAs (Decidable (∀ piece ∈ scan html.toList, piece.isClosed = true))

theorem Piece.isClosed_of_isComplete {piece : Piece} (h : piece.isComplete = true) :
    piece.isClosed = true := by
  cases piece with
  | unclosed source => cases h
  | _ => rfl

/-! ## Plain text -/

/-- A text in which no `<` begins a construct, whatever follows the text. -/
def Plain (cs : List Char) : Prop :=
  ∀ before after, cs = before ++ '<' :: after → ∀ more, construct? (after ++ more) = none

theorem plain_of_not_mem {cs : List Char} (h : '<' ∉ cs) : Plain cs := by
  rintro before after rfl
  simp at h

theorem Plain.append {as bs : List Char} (ha : Plain as) (hb : Plain bs) : Plain (as ++ bs) := by
  intro before after heq more
  rcases List.append_eq_append_iff.1 heq with ⟨gap, hbefore, hbs⟩ | ⟨gap, has, hgap⟩
  · exact hb gap after hbs more
  · cases gap with
    | nil => exact hb [] after (by simpa using hgap.symm) more
    | cons c gap =>
        rw [List.cons_append, List.cons.injEq] at hgap
        obtain ⟨rfl, rfl⟩ := hgap
        rw [List.append_assoc]
        exact ha before gap has (bs ++ more)

theorem Plain.of_append {as bs : List Char} (h : Plain (as ++ bs)) : Plain bs := by
  rintro before after rfl more
  exact h (as ++ before) after (by simp) more

theorem Plain.cons_lt {cs : List Char} (hnone : ∀ more, construct? (cs ++ more) = none)
    (h : Plain cs) : Plain ('<' :: cs) := by
  intro before after heq more
  cases before with
  | nil =>
      cases heq
      exact hnone more
  | cons b before =>
      obtain ⟨rfl, rfl⟩ := List.cons.inj heq
      exact h before after rfl more

/-- Plain text does not end in the beginning of a construct: something could follow it that makes
one. -/
theorem Plain.endsOpen_eq_false {cs : List Char} (h : Plain cs) : endsOpen cs = false := by
  rw [Bool.eq_false_iff]
  intro hopen
  simp only [endsOpen, List.any_eq_true, List.isSuffixOf_iff_suffix] at hopen
  obtain ⟨ending, hmem, before, rfl⟩ := hopen
  have hbegun : ∀ more after, ending = '<' :: after → construct? (after ++ more) = none := by
    rintro more after rfl
    exact h before after rfl more
  simp only [openEndings, List.mem_cons, List.not_mem_nil, or_false] at hmem
  rcases hmem with rfl | rfl | rfl | rfl
  · exact absurd (hbegun ['a'] _ rfl) (by decide)
  · exact absurd (hbegun ['a'] _ rfl) (by decide)
  · exact absurd (hbegun ['-', '-'] _ rfl) (by decide)
  · exact absurd (hbegun ['-'] _ rfl) (by decide)

/-- Plain text in front of a document is read as such. -/
theorem scan_append_of_plain {cs : List Char} (h : Plain cs) (more : List Char) :
    scan (cs ++ more) = consText cs (scan more) := by
  induction cs using scan_induction with
  | plain cs hcs =>
      rcases lt_cases more with hmore | ⟨before, after, hbefore, rfl⟩
      · rw [scan_plain (by simp [hcs, hmore]), scan_plain hmore, consText_append]
      · -- The first `<` stands in what follows, so both scans are at the same place there.
        have hboth : '<' ∉ cs ++ before := by simp [hcs, hbefore]
        rw [← List.append_assoc]
        cases hc : construct? after with
        | none =>
            rw [scan_lone hboth hc, scan_lone hbefore hc, ← consText_append, List.append_assoc]
        | some cut =>
            rw [scan_construct hboth hc, scan_construct hbefore hc, consText_append]
  | lone before after hbefore hc ih =>
      have hnone := h before after rfl more
      have hafter : Plain after := by
        rw [List.append_cons] at h
        exact h.of_append
      rw [List.append_assoc, List.cons_append, scan_lone hbefore hnone, ih hafter,
        ← consText_append]
      simp
  | construct before after pieces rest hbefore hc ih =>
      have hnone := h before after rfl []
      rw [List.append_nil, hc] at hnone
      cases hnone

/-! ## Tags -/

/-- A tag whose parts are read off its source. -/
structure Tag.Readable (t : Tag) : Prop where
  isName : IsTagName t.written
  boundary : ∀ c, (t.rest ++ ['>']).head? = some c → isTagNameChar c = false
  ends : tagRest? none (t.rest ++ ['>']) = some (t.rest, [])

theorem Tag.source_eq (t : Tag) :
    t.source = '<' :: ((if t.closing then ['/'] else []) ++ t.written ++ t.rest ++ ['>']) := by
  simp [Tag.source]

theorem readable_of_tagHead? {cs name rest inside after : List Char} {closing : Bool}
    (hhead : tagHead? cs = some (closing, name, rest))
    (hrest : tagRest? none rest = some (inside, after)) :
    (Tag.mk closing name inside).Readable := by
  have hname : tagName? (name ++ rest) = some (name, rest) := by
    have happ := append_of_tagHead? hhead
    unfold tagHead? at hhead
    split at hhead
    · obtain ⟨⟨a, b⟩, hname, heq⟩ := Option.map_eq_some_iff.1 hhead
      cases heq
      rwa [append_of_tagName? hname]
    · obtain ⟨⟨a, b⟩, hname, heq⟩ := Option.map_eq_some_iff.1 hhead
      cases heq
      rwa [append_of_tagName? hname]
  obtain ⟨hisName, hboundary, -⟩ := tagName?_eq_some_iff.1 hname
  have happ := append_of_tagRest? hrest
  refine ⟨hisName, ?_, tagRest?_append hrest []⟩
  intro c hc
  apply hboundary c
  rw [← happ]
  cases inside with
  | nil => simpa using hc
  | cons d inside => simpa using hc

theorem tagHead?_of_isTagName {name rest : List Char} (hname : IsTagName name)
    (hrest : ∀ c, rest.head? = some c → isTagNameChar c = false) (closing : Bool) :
    tagHead? ((if closing then ['/'] else []) ++ name ++ rest)
      = some (closing, name, rest) := by
  have hread : tagName? (name ++ rest) = some (name, rest) :=
    tagName?_eq_some_iff.2 ⟨hname, hrest, rfl⟩
  obtain ⟨c, cs, hcons, hc, -⟩ := hname
  cases closing with
  | true =>
      rw [if_pos rfl, List.append_assoc, List.singleton_append, tagHead?_of_slash, hread]
      rfl
  | false =>
      have hslash : (name ++ rest).head? ≠ some '/' := by
        rw [hcons]
        rintro heq
        cases heq
        exact absurd hc (by decide)
      rw [if_neg (by decide), List.nil_append, tagHead?_of_ne_slash hslash, hread]
      rfl

theorem Tag.Readable.tagHead? {t : Tag} (h : t.Readable) (more : List Char) :
    tagHead? ((if t.closing then ['/'] else []) ++ t.written ++ t.rest ++ '>' :: more)
      = some (t.closing, t.written, t.rest ++ '>' :: more) := by
  rw [List.append_assoc _ t.rest]
  refine tagHead?_of_isTagName h.isName (fun c hc => h.boundary c ?_) t.closing
  cases hr : t.rest with
  | nil => simpa [hr] using hc
  | cons d rest => simpa [hr] using hc

theorem construct?_of_tagHead? {cs name rest : List Char} {closing : Bool}
    (h : tagHead? cs = some (closing, name, rest)) :
    construct? cs =
      match tagRest? none rest with
      | some (inside, after) => some (withRawText ⟨closing, name, inside⟩ after)
      | none => some ([.unclosed ('<' :: cs)], []) := by
  -- What begins with the name of a tag does not begin a comment.
  have hpre : ['!', '-', '-'].isPrefixOf? cs = none := by
    rw [Option.eq_none_iff_forall_ne_some]
    intro inner hsome
    have hnone : tagHead? cs = none := by
      rw [tagHead?_eq_none_iff, ← List.append_eq_of_isPrefixOf?_eq_some hsome]
      intro c hc
      cases hc
      rfl
    rw [hnone] at h
    cases h
  unfold construct?
  split
  · next inner hsome =>
      rw [hpre] at hsome
      cases hsome
  · split
    · next hnone =>
        rw [hnone] at h
        cases h
    · next closing' name' rest' hsome =>
        rw [h] at hsome
        cases hsome
        rfl

/-- A tag is read the same whatever follows it. -/
theorem Tag.Readable.scan_source {t : Tag} (h : t.Readable) (more : List Char) :
    scan (t.source ++ more) = (withRawText t more).1 ++ scan (withRawText t more).2 := by
  have hc : construct? ((if t.closing then ['/'] else []) ++ t.written ++ t.rest ++ '>' :: more)
      = some (withRawText t more) := by
    have hrest := tagRest?_append h.ends more
    rw [construct?_of_tagHead? (h.tagHead? more), hrest]
  cases hcut : withRawText t more with
  | mk pieces rest =>
      rw [hcut] at hc
      rw [t.source_eq, ← scan_cons_construct hc]
      simp

theorem opensRawText_of_closing {t : Tag} (h : t.closing = true) : t.opensRawText = false := by
  simp [Tag.opensRawText, h]

theorem withRawText_of_not_opensRawText {t : Tag} (h : t.opensRawText = false) (cs : List Char) :
    withRawText t cs = ([.tag t], cs) := by
  simp [withRawText, h]

theorem Tag.Readable.scan_tag {t : Tag} (h : t.Readable) (hraw : t.opensRawText = false)
    (more : List Char) : scan (t.source ++ more) = .tag t :: scan more := by
  rw [h.scan_source, withRawText_of_not_opensRawText hraw]
  rfl

theorem Tag.Readable.scan_rawText {t : Tag} {body rest : List Char} (h : t.Readable)
    (hraw : t.opensRawText = true)
    (hbody : Text.breakBefore? (beginsEndTag (Text.lowercase t.written)) (body ++ rest)
      = some (body, rest)) :
    scan (t.source ++ (body ++ rest)) = .tag t :: .rawText body :: scan rest := by
  have hcut : withRawText t (body ++ rest) = ([.tag t, .rawText body], rest) := by
    rw [withRawText, if_pos hraw, hbody]
  rw [h.scan_source, hcut]
  rfl

/-- A comment is read the same whatever follows it. -/
theorem scan_comment {body : List Char}
    (h : Text.breakOn? ['-', '-', '>'] (body ++ ['-', '-', '>']) = some (body, []))
    (more : List Char) :
    scan ("<!--".toList ++ body ++ "-->".toList ++ more)
      = .comment ("<!--".toList ++ body ++ "-->".toList) :: scan more := by
  have hc : construct? ('!' :: '-' :: '-' :: (body ++ ['-', '-', '>'] ++ more))
      = some ([.comment ("<!--".toList ++ body ++ "-->".toList)], more) := by
    have hbreak := Text.breakOn?_append h more
    simp only [construct?, List.isPrefixOf?, beq_self_eq_true, if_true, hbreak]
  have hscan := scan_cons_construct hc
  simpa using hscan

/-! ## Constructs -/

/-- What stands in front of `rest` after one step of a scan. A comment and a tag end where they
end; raw text ends at what follows it; what is unclosed leaves nothing. -/
inductive Construct (rest : List Char) : List Piece → Prop
  | comment {body : List Char} :
      Text.breakOn? ['-', '-', '>'] (body ++ ['-', '-', '>']) = some (body, []) →
      Construct rest [.comment ("<!--".toList ++ body ++ "-->".toList)]
  | tag {t : Tag} : t.Readable → t.opensRawText = false → Construct rest [.tag t]
  | rawText {t : Tag} {body : List Char} :
      t.Readable → t.opensRawText = true →
      Text.breakBefore? (beginsEndTag (Text.lowercase t.written)) (body ++ rest)
        = some (body, rest) →
      Construct rest [.tag t, .rawText body]
  | unclosed {source : List Char} : rest = [] → Construct rest [.unclosed source]
  | unclosedRawText {t : Tag} {source : List Char} :
      t.Readable → t.opensRawText = true → rest = [] → Construct rest [.tag t, .unclosed source]

theorem construct_withRawText {t : Tag} (h : t.Readable) (cs : List Char) :
    Construct (withRawText t cs).2 (withRawText t cs).1 := by
  unfold withRawText
  split
  · next hraw =>
      split
      · next body rest hbreak =>
          rw [← Text.append_of_breakBefore? hbreak] at hbreak
          exact .rawText h hraw hbreak
      · exact .unclosedRawText h hraw rfl
  · next hraw => exact .tag h (by simpa using hraw)

theorem construct_of_construct? {after rest : List Char} {pieces : List Piece}
    (h : construct? after = some (pieces, rest)) : Construct rest pieces := by
  unfold construct? at h
  split at h
  · split at h
    · next body later hcut =>
        cases h
        have hbody := Text.breakOn?_append hcut []
        rw [List.append_nil] at hbody
        exact .comment hbody
    · cases h
      exact .unclosed rfl
  · split at h
    · cases h
    · next closing name later hhead =>
        split at h
        · next inside behind hrest =>
            have hconstruct := construct_withRawText (readable_of_tagHead? hhead hrest) behind
            rw [Option.some.inj h] at hconstruct
            exact hconstruct
        · cases h
          exact .unclosed rfl

/-- Only at the end of a document something is unclosed. -/
theorem Construct.isClosed {rest : List Char} {pieces : List Piece} (h : Construct rest pieces)
    (hrest : rest ≠ []) : ∀ piece ∈ pieces, piece.isClosed = true := by
  cases h with
  | unclosed hempty => exact absurd hempty hrest
  | unclosedRawText _ _ hempty => exact absurd hempty hrest
  | _ => simp [Piece.isClosed]

/-- A construct is read back from its source, in front of what it stands in front of. -/
theorem Construct.scan_eq {rest : List Char} {pieces : List Piece} (h : Construct rest pieces)
    (hclosed : ∀ piece ∈ pieces, piece.isClosed = true) :
    scan (sources pieces ++ rest) = pieces ++ scan rest := by
  cases h with
  | comment hbody =>
      rw [sources_cons, sources_nil, List.append_nil, Piece.source, scan_comment hbody]
      rfl
  | tag hread hraw =>
      rw [sources_cons, sources_nil, List.append_nil, Piece.source, hread.scan_tag hraw]
      rfl
  | rawText hread hraw hbreak =>
      rw [sources_cons, sources_cons, sources_nil, List.append_nil, Piece.source, Piece.source,
        List.append_assoc, hread.scan_rawText hraw hbreak]
      rfl
  | @unclosed source _ =>
      have := hclosed (.unclosed source) (by simp)
      cases this
  | @unclosedRawText t source _ _ _ =>
      have := hclosed (.unclosed source) (by simp)
      cases this

/-! ## Settled pieces -/

/-- The pieces of a self-contained document. A raw text stands between the tag that opens it and
the end tag up to which it runs. -/
inductive Settled : List Piece → Prop
  | nil : Settled []
  | text {cs : List Char} {pieces : List Piece} :
      cs ≠ [] → Plain cs → (∀ more rest, pieces ≠ .text more :: rest) → Settled pieces →
      Settled (.text cs :: pieces)
  | comment {body : List Char} {pieces : List Piece} :
      Text.breakOn? ['-', '-', '>'] (body ++ ['-', '-', '>']) = some (body, []) →
      Settled pieces → Settled (.comment ("<!--".toList ++ body ++ "-->".toList) :: pieces)
  | tag {t : Tag} {pieces : List Piece} :
      t.Readable → t.opensRawText = false → Settled pieces → Settled (.tag t :: pieces)
  | rawText {t closer : Tag} {body : List Char} {pieces : List Piece} :
      t.Readable → t.opensRawText = true → closer.Readable → closer.closing = true →
      (∀ more, Text.breakBefore? (beginsEndTag (Text.lowercase t.written))
        (body ++ (closer.source ++ more)) = some (body, closer.source ++ more)) →
      Settled pieces → Settled (.tag t :: .rawText body :: .tag closer :: pieces)

/-! ## Pieces in front of other pieces -/

/-- Puts a piece before other pieces; plain text is joined to plain text. -/
def Piece.before : Piece → List Piece → List Piece
  | .text cs, pieces => consText cs pieces
  | piece, pieces => piece :: pieces

/-- Two lists of pieces, one behind the other. -/
def splice (as bs : List Piece) : List Piece := as.foldr Piece.before bs

@[simp] theorem splice_nil (bs : List Piece) : splice [] bs = bs := rfl

@[simp] theorem splice_cons (piece : Piece) (as bs : List Piece) :
    splice (piece :: as) bs = piece.before (splice as bs) := rfl

theorem consText_of_not_text {cs : List Char} {pieces : List Piece} (hne : cs ≠ [])
    (hhead : ∀ more rest, pieces ≠ .text more :: rest) :
    consText cs pieces = .text cs :: pieces := by
  unfold consText
  split
  · exact absurd rfl hne
  · next more rest _ => exact absurd rfl (hhead more rest)
  · rfl

/-- Joining plain text leaves the component elements alone. -/
theorem filterMap_before (piece : Piece) (pieces : List Piece) :
    (piece.before pieces).filterMap Piece.componentTag?
      = (piece :: pieces).filterMap Piece.componentTag? := by
  cases piece with
  | text cs =>
      rw [Piece.before]
      unfold consText
      split
      · rfl
      · rfl
      · rfl
  | _ => rfl

theorem filterMap_splice (as bs : List Piece) :
    (splice as bs).filterMap Piece.componentTag?
      = as.filterMap Piece.componentTag? ++ bs.filterMap Piece.componentTag? := by
  induction as with
  | nil => rfl
  | cons piece as ih =>
      rw [splice_cons, filterMap_before, List.filterMap_cons, List.filterMap_cons, ih]
      split <;> rfl

theorem splice_nil_right {as : List Piece} (h : Settled as) : splice as [] = as := by
  induction h with
  | nil => rfl
  | text hne _ hhead _ ih => rw [splice_cons, ih, Piece.before, consText_of_not_text hne hhead]
  | comment _ _ ih => exact congrArg _ ih
  | tag _ _ _ ih => exact congrArg _ ih
  | rawText _ _ _ _ _ _ ih => simp only [splice_cons, ih, Piece.before]

/-- **Scanning is local**: behind settled pieces a scan goes on as if it began there. -/
theorem Settled.scan_append {pieces : List Piece} (h : Settled pieces) (more : List Char) :
    scan (sources pieces ++ more) = splice pieces (scan more) := by
  induction h with
  | nil => rfl
  | text _ hplain _ _ ih =>
      rw [sources_cons, Piece.source, List.append_assoc, scan_append_of_plain hplain, ih]
      rfl
  | comment hbody _ ih =>
      rw [sources_cons, Piece.source, List.append_assoc, scan_comment hbody, ih]
      rfl
  | tag hread hraw _ ih =>
      rw [sources_cons, Piece.source, List.append_assoc, hread.scan_tag hraw, ih]
      rfl
  | rawText hread hraw hcloser hclosing hbody _ ih =>
      simp only [sources_cons, Piece.source, List.append_assoc]
      rw [hread.scan_rawText hraw (hbody _), hcloser.scan_tag (opensRawText_of_closing hclosing),
        ih]
      rfl

/-- Settled pieces are read back from their sources. -/
theorem Settled.scan_sources {pieces : List Piece} (h : Settled pieces) :
    scan (sources pieces) = pieces := by
  have hscan := h.scan_append []
  have hnil : scan [] = [] := scan_plain List.not_mem_nil
  rwa [List.append_nil, hnil, splice_nil_right h] at hscan

theorem Settled.consText {cs : List Char} {pieces : List Piece} (hcs : Plain cs)
    (h : Settled pieces) : Settled (consText cs pieces) := by
  cases cs with
  | nil => exact h
  | cons c cs =>
      cases h with
      | nil => exact .text (by simp) hcs (by simp) .nil
      | text hne hplain hhead hrest =>
          exact .text (by simp) (hcs.append hplain) hhead hrest
      | comment hbody hrest => exact .text (by simp) hcs (by simp) (.comment hbody hrest)
      | tag hread hraw hrest => exact .text (by simp) hcs (by simp) (.tag hread hraw hrest)
      | rawText hread hraw hcloser hclosing hbody hrest =>
          exact .text (by simp) hcs (by simp) (.rawText hread hraw hcloser hclosing hbody hrest)

theorem Settled.splice {as bs : List Piece} (ha : Settled as) (hb : Settled bs) :
    Settled (splice as bs) := by
  induction ha with
  | nil => exact hb
  | text _ hplain _ _ ih => exact ih.consText hplain
  | comment hbody _ ih => exact .comment hbody ih
  | tag hread hraw _ ih => exact .tag hread hraw ih
  | rawText hread hraw hcloser hclosing hbody _ ih =>
      exact .rawText hread hraw hcloser hclosing hbody ih

/-- Settled pieces are plain text, which may be empty, and settled pieces that begin otherwise. -/
theorem Settled.exists_consText {pieces : List Piece} (h : Settled pieces) :
    ∃ cs rest, Plain cs ∧ (∀ more others, rest ≠ .text more :: others) ∧ Settled rest ∧
      pieces = SiteCompiler.Component.consText cs rest := by
  have hnil : Plain [] := plain_of_not_mem List.not_mem_nil
  cases h with
  | nil => exact ⟨[], [], hnil, by simp, .nil, rfl⟩
  | text hne hplain hhead hrest =>
      exact ⟨_, _, hplain, hhead, hrest, (consText_of_not_text hne hhead).symm⟩
  | comment hbody hrest => exact ⟨[], _, hnil, by simp, .comment hbody hrest, rfl⟩
  | tag hread hraw hrest => exact ⟨[], _, hnil, by simp, .tag hread hraw hrest, rfl⟩
  | rawText hread hraw hcloser hclosing hbody hrest =>
      exact ⟨[], _, hnil, by simp, .rawText hread hraw hcloser hclosing hbody hrest, rfl⟩

theorem Settled.of_tag {t : Tag} {pieces : List Piece} (h : Settled (.tag t :: pieces))
    (hraw : t.opensRawText = false) : Settled pieces := by
  cases h with
  | tag _ _ hrest => exact hrest
  | rawText _ hopens =>
      rw [hraw] at hopens
      cases hopens

theorem Settled.isComplete {pieces : List Piece} (h : Settled pieces) :
    ∀ piece ∈ pieces, piece.isComplete = true := by
  induction h with
  | nil => simp
  | text _ hplain _ _ ih => simpa [Piece.isComplete, hplain.endsOpen_eq_false] using ih
  | comment _ _ ih => simpa [Piece.isComplete] using ih
  | tag _ _ _ ih => simpa [Piece.isComplete] using ih
  | rawText _ _ _ _ _ _ ih => simpa [Piece.isComplete] using ih

/-! ## Self-contained documents have settled pieces -/

theorem isComplete_of_consText {cs : List Char} {pieces : List Piece}
    (h : ∀ piece ∈ consText cs pieces, piece.isComplete = true) :
    ∀ piece ∈ pieces, piece.isComplete = true := by
  unfold consText at h
  split at h
  · exact h
  · next more rest _ =>
      simp only [List.mem_cons, forall_eq_or_imp] at h ⊢
      refine ⟨?_, h.2⟩
      have hopen := h.1
      simp only [Piece.isComplete, Bool.not_eq_true'] at hopen ⊢
      rw [Bool.eq_false_iff] at hopen ⊢
      exact fun hmore => hopen (endsOpen_append cs hmore)
  · intro piece hpiece
    exact h piece (List.mem_cons_of_mem _ hpiece)

/-- The name of an element with raw text is one of four words. -/
theorem name_of_opensRawText {t : Tag} (h : t.opensRawText = true) :
    Text.lowercase t.written ∈ Tag.rawTextNames.map String.toList := by
  simp only [Tag.opensRawText, Bool.and_eq_true, List.contains_iff_mem] at h
  have hmem := List.mem_map_of_mem (f := String.toList) h.2
  rwa [Tag.name, String.toList_ofList] at hmem

theorem rawTextName_spec {name : List Char} (h : name ∈ Tag.rawTextNames.map String.toList) :
    ∃ c cs, name = c :: cs ∧ c.isAlpha = true ∧ '>' ∉ name := by
  simp only [Tag.rawTextNames, List.map_cons, List.map_nil, List.mem_cons, List.not_mem_nil,
    or_false] at h
  rcases h with rfl | rfl | rfl | rfl <;> exact ⟨_, _, rfl, by decide, by decide⟩

/-- Where raw text is closed, the characters are those of an end tag, case aside. -/
theorem lowercase_of_beginsEndTag {name cs : List Char} (h : beginsEndTag name cs = true) :
    Text.lowercase (cs.take (name.length + 2)) = '<' :: '/' :: name := by
  have hpre := List.isPrefixOf_iff_prefix.1 h
  have hlen : (Text.lowercase (cs.take (name.length + 2))).length
      ≤ ('<' :: '/' :: name).length := by
    simp only [Text.lowercase, List.length_map, List.length_take, List.length_cons]
    omega
  exact (List.IsPrefix.eq_of_length_le hpre hlen).symm

/-- Raw text runs to an end tag, which is read whole unless it is unclosed. -/
theorem scan_of_beginsEndTag {name rest : List Char}
    (hname : name ∈ Tag.rawTextNames.map String.toList) (h : beginsEndTag name rest = true) :
    scan rest = [.unclosed rest] ∨
    ∃ closer more, closer.Readable ∧ closer.closing = true ∧ rest = closer.source ++ more ∧
      scan rest = .tag closer :: scan more ∧ name.length + 2 ≤ closer.source.length := by
  obtain ⟨c, cs, hcons, hc, hgt⟩ := rawTextName_spec hname
  have hlower := lowercase_of_beginsEndTag h
  -- The first three characters are `<`, `/` and a letter.
  obtain ⟨z, tail, hz, rfl⟩ : ∃ z tail, z.isAlpha = true ∧ rest = '<' :: '/' :: z :: tail := by
    rw [hcons] at hlower
    match rest with
    | [] => simp [Text.lowercase] at hlower
    | [x] => simp [Text.lowercase] at hlower
    | [x, y] => simp [Text.lowercase] at hlower
    | x :: y :: z :: tail =>
        simp only [Text.lowercase, List.length_cons, List.take_succ_cons, List.map_cons,
          List.cons.injEq] at hlower
        obtain ⟨hx, hy, hz, -⟩ := hlower
        have hx' := eq_of_toLower_eq hx (by decide)
        have hy' := eq_of_toLower_eq hy (by decide)
        exact ⟨z, tail, by rw [← isAlpha_toLower, hz, hc], by rw [hx', hy']⟩
  have hhead : tagHead? ('/' :: z :: tail)
      = some (true, z :: tail.takeWhile isTagNameChar, tail.dropWhile isTagNameChar) := by
    simp [tagHead?_of_slash, tagName?, hz]
  have hc? := construct?_of_tagHead? hhead
  cases hrest : tagRest? none (tail.dropWhile isTagNameChar) with
  | none =>
      rw [hrest] at hc?
      left
      rw [scan_cons_construct hc?, scan_plain List.not_mem_nil]
      rfl
  | some cut =>
      right
      obtain ⟨inside, more⟩ := cut
      let closer : Tag := ⟨true, z :: tail.takeWhile isTagNameChar, inside⟩
      have hcut : withRawText closer more = ([.tag closer], more) :=
        withRawText_of_not_opensRawText (opensRawText_of_closing rfl) more
      rw [hrest] at hc?
      replace hc? := hc?.trans (congrArg some hcut)
      have hsource := sources_construct? hc?
      rw [sources_cons, sources_nil, List.append_nil] at hsource
      refine ⟨closer, more, readable_of_tagHead? hhead hrest, rfl, hsource.symm,
        scan_cons_construct hc?, ?_⟩
      -- Otherwise the `>` of the tag would be among the characters of the name.
      by_contra hshort
      rw [Nat.not_le] at hshort
      have hmem : '>' ∈ Text.lowercase (('<' :: '/' :: z :: tail).take (name.length + 2)) := by
        rw [← hsource, List.take_append,
          List.take_of_length_le (by exact Nat.le_of_lt hshort), Text.lowercase]
        refine List.mem_map.2 ⟨'>', ?_, rfl⟩
        simp [Piece.source, Tag.source]
      rw [hlower] at hmem
      simp only [List.mem_cons] at hmem
      rcases hmem with hmem | hmem | hmem
      · exact absurd hmem (by decide)
      · exact absurd hmem (by decide)
      · exact hgt hmem

/-- Raw text that is closed runs to an end tag, and it does so whatever follows this tag. -/
theorem exists_closer {name body rest : List Char}
    (hname : name ∈ Tag.rawTextNames.map String.toList)
    (hbreak : Text.breakBefore? (beginsEndTag name) (body ++ rest) = some (body, rest))
    (hclosed : ∀ piece ∈ scan rest, piece.isClosed = true) :
    ∃ closer more, closer.Readable ∧ closer.closing = true ∧ rest = closer.source ++ more ∧
      scan rest = .tag closer :: scan more ∧ ∀ following,
        Text.breakBefore? (beginsEndTag name) (body ++ (closer.source ++ following))
          = some (body, closer.source ++ following) := by
  rcases scan_of_beginsEndTag hname (Text.tail_of_breakBefore? hbreak) with
    hunclosed | ⟨closer, more, hread, hclosing, rfl, hscan, hlen⟩
  · have := hclosed (.unclosed rest) (by rw [hunclosed]; simp)
    cases this
  · refine ⟨closer, more, hread, hclosing, rfl, hscan, fun following => ?_⟩
    rw [← List.append_assoc] at hbreak ⊢
    exact Text.breakBefore?_append (beginsEndTag_append _) hlen hbreak following

/-- A construct that is complete stays settled in front of settled pieces. -/
theorem Construct.settled {rest : List Char} {pieces : List Piece} (h : Construct rest pieces)
    (hcomplete : ∀ piece ∈ pieces ++ scan rest, piece.isComplete = true)
    (ih : Settled (scan rest)) : Settled (pieces ++ scan rest) := by
  cases h with
  | comment hbody => exact .comment hbody ih
  | tag hread hraw => exact .tag hread hraw ih
  | rawText hread hraw hbreak =>
      -- The raw text ends at an end tag, which is the first piece of the rest.
      obtain ⟨closer, more, hcloser, hclosing, rfl, hscan, hbody⟩ :=
        exists_closer (name_of_opensRawText hraw) hbreak fun piece hpiece =>
          Piece.isClosed_of_isComplete (hcomplete piece (List.mem_append_right _ hpiece))
      rw [hscan] at ih ⊢
      exact .rawText hread hraw hcloser hclosing hbody
        (ih.of_tag (opensRawText_of_closing hclosing))
  | unclosed =>
      have := hcomplete _ (List.mem_append_left _ (List.mem_singleton_self _))
      cases this
  | @unclosedRawText t source =>
      have := hcomplete (.unclosed source) (by simp)
      cases this

/-- **Self-contained documents are settled**: the other half of `Settled.scan_sources`. -/
theorem settled_scan (cs : List Char)
    (hcomplete : ∀ piece ∈ scan cs, piece.isComplete = true) : Settled (scan cs) := by
  induction cs using scan_induction with
  | plain cs h =>
      rw [scan_plain h]
      exact Settled.nil.consText (plain_of_not_mem h)
  | construct before after pieces rest h hc ih =>
      rw [scan_construct h hc] at hcomplete ⊢
      have hpieces := isComplete_of_consText hcomplete
      have hconstruct := construct_of_construct? hc
      refine Settled.consText (plain_of_not_mem h) (hconstruct.settled hpieces (ih ?_))
      exact fun piece hpiece => hpieces piece (List.mem_append_right _ hpiece)
  | lone before after h hc ih =>
      rw [scan_lone h hc] at hcomplete ⊢
      have hafter := ih (isComplete_of_consText hcomplete)
      obtain ⟨cs, pieces, hcs, hhead, hpieces, hscan⟩ := hafter.exists_consText
      have hsource := sources_scan after
      rw [hscan, sources_consText] at hsource
      rw [hscan, ← consText_append] at hcomplete ⊢
      -- The `<` begins nothing together with the text behind it, and what follows that text does
      -- not matter, since the text would otherwise be an open ending.
      have hopen : endsOpen ('<' :: cs) = false := by
        rw [Bool.eq_false_iff]
        intro hopen
        have htext := hcomplete (.text (before ++ ['<'] ++ cs))
          (by rw [consText_of_not_text (by simp) hhead]; exact List.mem_cons_self)
        have hlonger := endsOpen_append before hopen
        simp [Piece.isComplete, hlonger] at htext
      rw [← hsource] at hc
      have hlt : Plain ('<' :: cs) := hcs.cons_lt (construct?_append_of_none hc hopen)
      have hplain := (plain_of_not_mem h).append hlt
      rw [List.append_cons] at hplain
      exact hpieces.consText hplain

/-! ## Parts of settled pieces -/

/-- Settled pieces can be cut behind a tag that opens no raw text. -/
theorem Settled.of_append_tag {as bs : List Piece} {t : Tag} (hraw : t.opensRawText = false)
    (h : Settled (as ++ .tag t :: bs)) : Settled bs := by
  generalize hpieces : as ++ .tag t :: bs = pieces at h
  induction h generalizing as with
  | nil => simp at hpieces
  | text _ _ _ _ ih =>
      cases as with
      | nil => cases hpieces
      | cons a as => exact ih (List.cons.inj hpieces).2
  | comment _ _ ih =>
      cases as with
      | nil => cases hpieces
      | cons a as => exact ih (List.cons.inj hpieces).2
  | tag _ _ hrest ih =>
      cases as with
      | nil =>
          cases hpieces
          exact hrest
      | cons a as => exact ih (List.cons.inj hpieces).2
  | rawText _ hopens _ _ _ hrest ih =>
      match as with
      | [] =>
          cases hpieces
          rw [hraw] at hopens
          cases hopens
      | [_] => cases hpieces
      | [_, _] =>
          cases hpieces
          exact hrest
      | _ :: _ :: _ :: as => exact ih (List.cons.inj (List.cons.inj (List.cons.inj hpieces).2).2).2

/-- A piece that closes an element of a name is an end tag of that name. -/
theorem tag_of_nesting_false {name : String} {piece : Piece}
    (h : piece.nesting name = some false) :
    ∃ t, piece = .tag t ∧ t.closing = true ∧ t.name = name := by
  cases piece with
  | tag t =>
      simp only [Piece.nesting] at h
      split at h
      · cases h
      · next hname =>
          split at h
          · next hclosing => exact ⟨t, rfl, hclosing, not_not.1 hname⟩
          · split at h <;> cases h
  | _ => cases h

/-- Pieces that are cut at the end of an element end with its end tag. -/
theorem exists_tag_of_splitAtEnd? {name : String} : ∀ {depth : Nat} {pieces as bs : List Piece},
    splitAtEnd? name depth pieces = some (as, bs) →
      ∃ front t, as = front ++ [.tag t] ∧ t.closing = true ∧ t.name = name
  | _, [], _, _, h => by cases h
  | depth, piece :: pieces, as, bs, h => by
      have hlast : ∀ {d : Nat} {cut : List Piece × List Piece},
          splitAtEnd? name d pieces = some cut →
            ∃ front t, piece :: cut.1 = front ++ [.tag t] ∧ t.closing = true ∧ t.name = name := by
        intro d cut hcut
        obtain ⟨front, t, heq, hcloses⟩ := exists_tag_of_splitAtEnd? hcut
        exact ⟨piece :: front, t, by rw [heq]; rfl, hcloses⟩
      simp only [splitAtEnd?] at h
      split at h
      · next hnesting =>
          cases h
          obtain ⟨t, rfl, hcloses⟩ := tag_of_nesting_false hnesting
          exact ⟨[], t, rfl, hcloses⟩
      all_goals
        obtain ⟨cut, hcut, heq⟩ := Option.map_eq_some_iff.1 h
        cases heq
        exact hlast hcut

/-- What stands behind a component element among settled pieces is settled. -/
theorem Settled.elementPieces {t : Tag} {pieces : List Piece} (h : Settled (.tag t :: pieces))
    (hraw : t.opensRawText = false) : Settled (elementPieces t pieces).2 := by
  have hpieces := h.of_tag hraw
  unfold SiteCompiler.Component.elementPieces
  split
  · exact hpieces
  · cases hsplit : splitAtEnd? t.name 0 pieces with
    | none => exact hpieces
    | some cut =>
        obtain ⟨front, closer, hfront, hclosing, -⟩ := exists_tag_of_splitAtEnd? hsplit
        rw [← append_of_splitAtEnd? hsplit, hfront, List.append_assoc] at hpieces
        exact hpieces.of_append_tag (opensRawText_of_closing hclosing)

theorem opensRawText_of_isComponentTag {t : Tag} (h : isComponentTag t.name = true) :
    t.opensRawText = false := by
  have hraw : ∀ name ∈ Tag.rawTextNames, isComponentTag name = false := by decide
  rw [Bool.eq_false_iff]
  intro hopens
  simp only [Tag.opensRawText, Bool.and_eq_true, List.contains_iff_mem] at hopens
  rw [hraw t.name hopens.2] at h
  cases h

/-- Raw text is never a component's. -/
theorem componentTag?_of_opensRawText {t : Tag} (h : t.opensRawText = true) :
    (Piece.tag t).componentTag? = none := by
  cases ht : (Piece.tag t).componentTag? with
  | none => rfl
  | some t' =>
      obtain ⟨heq, -, hname⟩ := source_of_componentTag? ht
      cases heq
      rw [opensRawText_of_isComponentTag hname] at h
      cases h

theorem componentTag?_of_closing {t : Tag} (h : t.closing = true) :
    (Piece.tag t).componentTag? = none := by
  simp [Piece.componentTag?, h]

end SiteCompiler.Component
