import SiteCompiler.Proofs.Component.Splice
set_option autoImplicit false

/-! # Scanning a part of a document

A document is scanned from its beginning to its end. If it is cut at tags that a scan has found,
the part between is scanned to the same pieces: from a tag on, whatever stands before it
(`scan_from_tag`), and up to a tag, whatever stands behind it (`scan_to_tag`). Together they say
that a stretch of pieces that begins and ends with a tag is the scan of its own source
(`scan_between_tags`). Nothing is asked of the document: it may be unclosed in any place.
-/

namespace SiteCompiler.Component

/-! ## Text in front of a tag -/

theorem consText_append_pieces {bs : List Piece} (hhead : ∀ more rest, bs ≠ .text more :: rest)
    (cs : List Char) (as : List Piece) : consText cs (as ++ bs) = consText cs as ++ bs := by
  cases cs with
  | nil => rfl
  | cons c cs =>
      cases as with
      | nil => exact consText_of_not_text (List.cons_ne_nil c cs) hhead
      | cons a as => cases a <;> rfl

theorem consText_append_tag (cs : List Char) (as bs : List Piece) (t : Tag) :
    consText cs (as ++ .tag t :: bs) = consText cs as ++ .tag t :: bs :=
  consText_append_pieces (by simp) cs as

/-- Text that is put before pieces leaves their tags behind it. -/
theorem eq_of_consText_eq {cs : List Char} {pieces as bs : List Piece} {t : Tag}
    (h : consText cs pieces = as ++ .tag t :: bs) :
    ∃ as', pieces = as' ++ .tag t :: bs ∧ as = consText cs as' := by
  unfold consText at h
  split at h
  · exact ⟨as, h, rfl⟩
  · next more rest _ =>
      cases as with
      | nil => cases h
      | cons a as =>
          obtain ⟨rfl, hrest⟩ := List.cons.inj h
          exact ⟨.text more :: as, by rw [hrest]; rfl, by simp [consText]⟩
  · next hne hhead =>
      cases as with
      | nil => cases h
      | cons a as =>
          obtain ⟨rfl, hrest⟩ := List.cons.inj h
          refine ⟨as, hrest, (consText_of_not_text hne ?_).symm⟩
          rintro more rest rfl
          exact hhead more _ hrest

theorem getLast?_append_tag (cs : List Char) (t : Tag) :
    (cs ++ t.source).getLast? = some '>' := by
  rw [Tag.source, ← List.append_assoc, List.getLast?_concat]

/-- A text that ends in a tag ends in nothing that may begin a construct. -/
theorem endsOpen_append_tag (cs : List Char) (t : Tag) : endsOpen (cs ++ t.source) = false := by
  rw [Bool.eq_false_iff]
  intro hopen
  simp only [endsOpen, List.any_eq_true, List.isSuffixOf_iff_suffix] at hopen
  obtain ⟨ending, hmem, before, heq⟩ := hopen
  have hlast : (before ++ ending).getLast? = some '>' := by
    rw [heq, getLast?_append_tag]
  simp only [openEndings, List.mem_cons, List.not_mem_nil, or_false] at hmem
  rcases hmem with rfl | rfl | rfl | rfl
  all_goals
    rw [List.getLast?_append_of_ne_nil _ (by decide)] at hlast
    exact absurd hlast (by decide)

/-! ## One construct -/

/-- A tag among the pieces from a construct on is the first piece of the construct or stands behind
it. -/
theorem Construct.tag_cases {rest : List Char} {pieces others as bs : List Piece} {t : Tag}
    (h : Construct rest pieces) (heq : pieces ++ others = as ++ .tag t :: bs) :
    (as = [] ∧ ∃ more, pieces = .tag t :: more) ∨
      ∃ gap, as = pieces ++ gap ∧ others = gap ++ .tag t :: bs := by
  cases as with
  | nil =>
      left
      cases h with
      | tag _ _ => exact ⟨rfl, [], by cases heq; rfl⟩
      | @rawText _ body _ _ _ => exact ⟨rfl, [.rawText body], by cases heq; rfl⟩
      | @unclosedRawText _ source _ _ _ => exact ⟨rfl, [.unclosed source], by cases heq; rfl⟩
      | comment _ => cases heq
      | unclosed _ => cases heq
  | cons a as =>
      right
      cases h with
      | rawText _ _ _ =>
          cases as with
          | nil => cases heq
          | cons a' as => cases heq; exact ⟨as, rfl, rfl⟩
      | unclosedRawText _ _ _ =>
          cases as with
          | nil => cases heq
          | cons a' as => cases heq; exact ⟨as, rfl, rfl⟩
      | _ => cases heq; exact ⟨as, rfl, rfl⟩

/-- The end tag up to which raw text runs stands in front of the end of any tag that is found behind
the raw text. -/
theorem length_le_of_beginsEndTag {name rest : List Char} {gap bs : List Piece} {t : Tag}
    (hname : name ∈ Tag.rawTextNames.map String.toList) (h : beginsEndTag name rest = true)
    (hrest : scan rest = gap ++ .tag t :: bs) :
    name.length + 2 ≤ (sources gap ++ t.source).length := by
  rcases scan_of_beginsEndTag hname h with hunclosed | ⟨closer, more, -, -, -, hscan, hlen⟩
  · rw [hunclosed] at hrest
    cases gap with
    | nil => cases hrest
    | cons a gap => simp at hrest
  · rw [hscan] at hrest
    cases gap with
    | nil =>
        cases hrest
        simpa using hlen
    | cons a gap =>
        obtain ⟨rfl, -⟩ := List.cons.inj hrest
        simp only [sources_cons, Piece.source, List.length_append] at hlen ⊢
        omega

/-- A construct is still one when the document is cut behind a later tag. -/
theorem Construct.cut {rest : List Char} {pieces gap bs : List Piece} {t : Tag}
    (h : Construct rest pieces) (hrest : scan rest = gap ++ .tag t :: bs) :
    Construct (sources gap ++ t.source) pieces := by
  have hcut : rest = sources gap ++ t.source ++ sources bs := by
    calc rest = sources (scan rest) := (sources_scan rest).symm
      _ = sources gap ++ (t.source ++ sources bs) := by
          rw [hrest, sources_append, sources_cons, Piece.source]
      _ = sources gap ++ t.source ++ sources bs := (List.append_assoc _ _ _).symm
  have hne : rest ≠ [] := by
    rw [hcut]
    simp [Tag.source]
  cases h with
  | comment hbody => exact .comment hbody
  | tag hread hraw => exact .tag hread hraw
  | @rawText u body hread hraw hbreak =>
      have hlen := length_le_of_beginsEndTag (name_of_opensRawText hraw)
        (Text.tail_of_breakBefore? hbreak) hrest
      -- Nothing behind the cut was looked at to find the end of the raw text.
      rw [hcut, ← List.append_assoc] at hbreak
      have hbody := Text.breakBefore?_append (beginsEndTag_append _) hlen hbreak []
      rw [List.append_nil, List.append_nil] at hbody
      exact .rawText hread hraw hbody
  | unclosed hempty => exact absurd hempty hne
  | unclosedRawText _ _ hempty => exact absurd hempty hne

/-! ## From a tag on, and up to a tag -/

/-- A tag is scanned with what follows it as if the document began there. -/
theorem scan_from_tag {cs : List Char} {as bs : List Piece} {t : Tag}
    (h : scan cs = as ++ .tag t :: bs) : scan (t.source ++ sources bs) = .tag t :: bs := by
  induction cs using scan_induction generalizing as with
  | plain cs hplain =>
      rw [scan_plain hplain] at h
      obtain ⟨as', hnil, -⟩ := eq_of_consText_eq h
      simp at hnil
  | lone before after hbefore hc ih =>
      rw [scan_lone hbefore hc] at h
      obtain ⟨as', hafter, -⟩ := eq_of_consText_eq h
      exact ih hafter
  | construct before after pieces rest hbefore hc ih =>
      rw [scan_construct hbefore hc] at h
      obtain ⟨as', hpieces, -⟩ := eq_of_consText_eq h
      rcases (construct_of_construct? hc).tag_cases hpieces with ⟨rfl, -⟩ | ⟨gap, -, hrest⟩
      · -- The tag is where the construct begins.
        have hsource : t.source ++ sources bs = '<' :: after := by
          calc t.source ++ sources bs
              = sources (.tag t :: bs) := (sources_cons (.tag t) bs).symm
            _ = sources (pieces ++ scan rest) := by rw [hpieces, List.nil_append]
            _ = '<' :: after := by rw [sources_append, sources_scan, sources_construct? hc]
        rw [hsource, scan_cons_construct hc, hpieces, List.nil_append]
      · exact ih hrest

/-- Up to a tag that opens no raw text, a document is scanned as if it ended there. -/
theorem scan_to_tag {cs : List Char} {as bs : List Piece} {t : Tag}
    (h : scan cs = as ++ .tag t :: bs) (hraw : t.opensRawText = false) :
    scan (sources as ++ t.source) = as ++ [.tag t] := by
  induction cs using scan_induction generalizing as with
  | plain cs hplain =>
      rw [scan_plain hplain] at h
      obtain ⟨as', hnil, -⟩ := eq_of_consText_eq h
      simp at hnil
  | lone before after hbefore hc ih =>
      rw [scan_lone hbefore hc] at h
      obtain ⟨as', hafter, rfl⟩ := eq_of_consText_eq h
      -- The `<` begins nothing in front of the whole rest, and so it does in front of a part.
      have hnone : construct? (sources as' ++ t.source) = none := by
        have hcut : sources as' ++ t.source ++ sources bs = after := by
          rw [← sources_scan after, hafter]
          simp [Piece.source]
        rw [← hcut] at hc
        have hopen := endsOpen_append_tag ('<' :: sources as') t
        simpa using construct?_append_of_none hc hopen []
      have hscan := scan_lone hbefore hnone
      rw [ih hafter, consText_append_tag] at hscan
      rw [sources_consText, ← hscan]
      simp
  | construct before after pieces rest hbefore hc ih =>
      rw [scan_construct hbefore hc] at h
      obtain ⟨as', hpieces, rfl⟩ := eq_of_consText_eq h
      have hconstruct := construct_of_construct? hc
      rw [sources_consText, List.append_assoc, scan_append_of_plain (plain_of_not_mem hbefore)]
      have hinner : scan (sources as' ++ t.source) = as' ++ [.tag t] := by
        rcases hconstruct.tag_cases hpieces with ⟨rfl, more, rfl⟩ | ⟨gap, rfl, hrest⟩
        · cases hconstruct with
          | tag hread _ =>
              have hscan := hread.scan_tag hraw []
              rw [scan_plain List.not_mem_nil] at hscan
              simpa [consText] using hscan
          | rawText _ hopens _ =>
              rw [hraw] at hopens
              cases hopens
          | unclosedRawText _ hopens _ =>
              rw [hraw] at hopens
              cases hopens
        · have hcut := hconstruct.cut hrest
          have hclosed := hcut.isClosed (by simp [Tag.source])
          rw [sources_append, List.append_assoc, hcut.scan_eq hclosed, ih hrest, List.append_assoc]
      rw [hinner]
      exact consText_append_tag before as' [] t

/-- From a tag up to a tag, a document is scanned as if there were nothing else. -/
theorem scan_between_tags {cs : List Char} {as inside bs : List Piece} {t closer : Tag}
    (h : scan cs = as ++ .tag t :: (inside ++ .tag closer :: bs))
    (hraw : closer.opensRawText = false) :
    scan (sources (.tag t :: (inside ++ [.tag closer]))) = .tag t :: (inside ++ [.tag closer]) := by
  have hfrom : scan (t.source ++ sources (inside ++ .tag closer :: bs))
      = (.tag t :: inside) ++ .tag closer :: bs := scan_from_tag h
  have hto := scan_to_tag hfrom hraw
  simpa [Piece.source] using hto

/-- A tag of a document that opens no raw text is a document of one piece. -/
theorem scan_tag {cs : List Char} {as bs : List Piece} {t : Tag}
    (h : scan cs = as ++ .tag t :: bs) (hraw : t.opensRawText = false) :
    scan t.source = [.tag t] := by
  have hfrom : scan (t.source ++ sources bs) = [] ++ .tag t :: bs := scan_from_tag h
  exact scan_to_tag hfrom hraw

end SiteCompiler.Component
