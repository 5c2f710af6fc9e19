import SiteCompiler.Proofs.Component.Rescan
set_option autoImplicit false

/-! # A document in front of a tag

In front of a tag a closed document is scanned as if it stood alone (`scan_append_tag`), and so it
is in front of whatever else begins with a `<` and is no text (`scan_append_lt`). Its comments, tags
and raw texts end where they end, and a `<` that is plain text is still so, since no construct
begins with two of them.
-/

namespace SiteCompiler.Component

/-- A construct whose end is found stays one in front of a longer text. -/
theorem Construct.append {rest : List Char} {pieces : List Piece} (h : Construct rest pieces)
    (hclosed : ∀ piece ∈ pieces ++ scan rest, piece.isClosed = true) (more : List Char) :
    Construct (rest ++ more) pieces := by
  cases h with
  | comment hbody => exact .comment hbody
  | tag hread hraw => exact .tag hread hraw
  | rawText hread hraw hbreak =>
      obtain ⟨closer, later, -, -, rfl, -, hbody⟩ :=
        exists_closer (name_of_opensRawText hraw) hbreak fun piece hpiece =>
          hclosed piece (List.mem_append_right _ hpiece)
      refine .rawText hread hraw ?_
      rw [List.append_assoc]
      exact hbody (later ++ more)
  | @unclosed source _ =>
      have := hclosed (.unclosed source) (by simp)
      cases this
  | @unclosedRawText t source _ _ _ =>
      have := hclosed (.unclosed source) (by simp)
      cases this

/-! ## Plain text in front of a `<` -/

theorem nameStart?_append_lt (cs more : List Char) :
    nameStart? (cs ++ '<' :: more) = nameStart? cs ∨
      nameStart? (cs ++ '<' :: more) = some '<' := by
  cases cs with
  | nil => exact Or.inr rfl
  | cons a cs =>
      by_cases ha : a = '/'
      · subst ha
        cases cs with
        | nil => exact Or.inr rfl
        | cons b cs => exact Or.inl rfl
      · rw [List.cons_append, nameStart?_of_ne_slash ha, nameStart?_of_ne_slash ha]
        exact Or.inl rfl

theorem commentStart_append_lt (cs more : List Char) :
    ['!', '-', '-'] <+: cs ++ '<' :: more ↔ ['!', '-', '-'] <+: cs := by
  match cs with
  | [] => simp [List.cons_prefix_cons]
  | [a] => simp [List.cons_prefix_cons]
  | [a, b] => simp [List.cons_prefix_cons]
  | a :: b :: c :: cs => exact Text.prefix_append_iff (by simp) _

/-- A `<` that begins nothing at the end of a document begins nothing in front of another `<`. -/
theorem construct?_append_lt {cs : List Char} (h : construct? cs = none) (more : List Char) :
    construct? (cs ++ '<' :: more) = none := by
  rw [construct?_eq_none_iff] at h ⊢
  rw [commentStart_append_lt]
  refine ⟨h.1, fun c hc => ?_⟩
  rcases nameStart?_append_lt cs more with hsame | hlt
  · rw [hsame] at hc
    exact h.2 c hc
  · rw [hlt] at hc
    cases hc
    decide

/-! ## In front of a tag -/

theorem isClosed_of_consText {cs : List Char} {pieces : List Piece}
    (h : ∀ piece ∈ consText cs pieces, piece.isClosed = true) :
    ∀ piece ∈ pieces, piece.isClosed = true := by
  unfold consText at h
  split at h
  · exact h
  · intro piece hpiece
    rcases List.mem_cons.1 hpiece with rfl | hpiece
    · rfl
    · exact h piece (List.mem_cons_of_mem _ hpiece)
  · exact fun piece hpiece => h piece (List.mem_cons_of_mem _ hpiece)

/-- **In front of a tag or comment, a closed document is scanned as if it stood alone.** -/
theorem scan_append_lt {cs later : List Char} (h : ∀ piece ∈ scan cs, piece.isClosed = true)
    (hhead : ∀ more rest, scan ('<' :: later) ≠ .text more :: rest) :
    scan (cs ++ '<' :: later) = scan cs ++ scan ('<' :: later) := by
  induction cs using scan_induction with
  | plain cs hplain =>
      rw [scan_append_of_plain (plain_of_not_mem hplain), scan_plain hplain]
      exact consText_append_pieces hhead cs []
  | lone before after hbefore hc ih =>
      rw [scan_lone hbefore hc] at h ⊢
      rw [List.append_assoc, List.cons_append, scan_lone hbefore (construct?_append_lt hc later),
        ih (isClosed_of_consText h), consText_append_pieces hhead]
  | construct before after pieces rest hbefore hc ih =>
      rw [scan_construct hbefore hc] at h ⊢
      have hpieces := isClosed_of_consText h
      have hconstruct := (construct_of_construct? hc).append hpieces ('<' :: later)
      have hscan := hconstruct.scan_eq fun piece hpiece =>
        hpieces piece (List.mem_append_left _ hpiece)
      have hrest := ih fun piece hpiece => hpieces piece (List.mem_append_right _ hpiece)
      have hsource : before ++ '<' :: after ++ '<' :: later
          = before ++ (sources pieces ++ (rest ++ '<' :: later)) := by
        rw [← List.append_assoc (sources pieces), sources_construct? hc, List.append_assoc]
      rw [hsource, scan_append_of_plain (plain_of_not_mem hbefore), hscan, hrest,
        ← List.append_assoc, consText_append_pieces hhead]

theorem scan_append_tag {cs more : List Char} {t : Tag} {bs : List Piece}
    (h : ∀ piece ∈ scan cs, piece.isClosed = true) (hmore : scan more = .tag t :: bs) :
    scan (cs ++ more) = scan cs ++ .tag t :: bs := by
  obtain ⟨later, rfl⟩ : ∃ later, more = '<' :: later := by
    have hsource := sources_scan more
    rw [hmore, sources_cons, Piece.source, Tag.source_eq] at hsource
    exact ⟨_, hsource.symm⟩
  rw [scan_append_lt h (by simp [hmore]), hmore]

/-! ## One tag -/

/-- What is known of a text that is one tag. -/
theorem readable_of_scan_eq {cs : List Char} {t : Tag} (h : scan cs = [.tag t]) :
    t.Readable ∧ t.opensRawText = false := by
  have hsettled : Settled [.tag t] := by
    rw [← h]
    refine settled_scan cs fun piece hpiece => ?_
    rw [h, List.mem_singleton] at hpiece
    rw [hpiece]
    rfl
  cases hsettled with
  | tag hread hraw _ => exact ⟨hread, hraw⟩

/-- A text that is one tag is read as this tag, whatever follows it. -/
theorem scan_tag_append {cs : List Char} {t : Tag} (h : scan cs = [.tag t]) (more : List Char) :
    scan (cs ++ more) = .tag t :: scan more := by
  obtain ⟨hread, hraw⟩ := readable_of_scan_eq h
  have hsource : t.source = cs := by
    rw [← sources_scan cs, h]
    simp [Piece.source]
  rw [← hsource, hread.scan_tag hraw]

/-- A tag that is nothing but its name is read off its source. -/
theorem readable_of_isTagName {name : List Char} (h : IsTagName name) (closing : Bool) :
    (Tag.mk closing name []).Readable := by
  refine ⟨h, fun c hc => ?_, rfl⟩
  cases hc
  decide

/-- The end tag of an element without anything behind its name. -/
theorem scan_endTag {name : String} (h : IsTagName name.toList) :
    scan ("</" ++ name ++ ">").toList = [.tag ⟨true, name.toList, []⟩] := by
  have hscan := (readable_of_isTagName h true).scan_tag (opensRawText_of_closing rfl) []
  rw [scan_plain List.not_mem_nil] at hscan
  simpa [Tag.source, consText] using hscan

end SiteCompiler.Component
