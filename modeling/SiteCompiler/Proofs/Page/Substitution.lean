import SiteCompiler.Proofs.Page.Placeholder
set_option autoImplicit false

/-! # Filling in the placeholders of a page

A page names with two placeholders where its CSS goes. `Filled` says what comes out if each is
filled in where it first stands in the page. The replacements are made one after the other, though,
and the second one looks for its placeholder in the result of the first. Where the critical CSS, or
the text around it when its placeholder is gone, holds the placeholder of the link in front of the
page's own, that one is replaced and the page's own stays (`Captured`). There is no other exception
(`replacePlaceholders_spec`).
-/

namespace SiteCompiler.Page

/-! ## Two occurrences -/

/-- Two texts occur in a third one, and the first occurrences stand around `between` in this
order. -/
def InOrder (needle needle' text before between after : String) : Prop :=
  FirstAt needle text before (between ++ needle' ++ after) ∧
    FirstAt needle' text (before ++ needle ++ between) after

namespace InOrder

variable {needle needle' text before between after : String}

instance : Decidable (InOrder needle needle' text before between after) :=
  inferInstanceAs (Decidable (_ ∧ _))

theorem unique {before' between' after' : String}
    (h : InOrder needle needle' text before between after)
    (h' : InOrder needle needle' text before' between' after') :
    before = before' ∧ between = between' ∧ after = after' := by
  obtain ⟨rfl, -⟩ := h.1.unique h'.1
  obtain ⟨hfront, rfl⟩ := h.2.unique h'.2
  exact ⟨rfl, (String.append_right_inj _).1 hfront, rfl⟩

theorem substitute_eq (h : InOrder needle needle' text before between after)
    (replacement : String) :
    substitute needle replacement text
      = before ++ replacement ++ between ++ needle' ++ after := by
  rw [h.1.substitute_eq]
  simp only [String.append_assoc]

end InOrder

/-! ## The two placeholders -/

/-- The placeholder of the link is found where it stands if there is none in front of it. -/
theorem firstAt_nonCriticalPlaceholder {text : String}
    (h : mentions nonCriticalPlaceholder text = false) (more : String) :
    FirstAt nonCriticalPlaceholder (text ++ nonCriticalPlaceholder ++ more) text more := by
  have hfound := @Text.breakOn?_append_of_not_occursIn '$' nonCriticalPlaceholder.toList.tail
    text.toList (by decide) h more.toList
  rw [firstAt_iff, String.toList_append, String.toList_append]
  exact hfound

/-- The placeholders do not overlap, so one of them stands in front of the other. -/
theorem placeholders_apart {html before after before' after' : String}
    (hc : html = before ++ criticalPlaceholder ++ after)
    (hn : html = before' ++ nonCriticalPlaceholder ++ after') :
    (∃ between, before = before' ++ nonCriticalPlaceholder ++ between ∧
        after' = between ++ criticalPlaceholder ++ after) ∨
      ∃ between, before' = before ++ criticalPlaceholder ++ between ∧
        after = between ++ nonCriticalPlaceholder ++ after' := by
  have hlist := congrArg String.toList (hc.symm.trans hn)
  simp only [String.toList_append] at hlist
  rcases @Text.occurrence_apart '$' criticalPlaceholder.toList.tail
    nonCriticalPlaceholder.toList.tail _ _ _ _ (by decide) (by decide) (by decide) (by decide) hlist
    with ⟨gap, hgap⟩ | ⟨gap, hgap⟩
  · have hbefore : before = before' ++ nonCriticalPlaceholder ++ String.ofList gap := by
      apply String.toList_injective
      rw [hgap, String.toList_append, String.toList_append, String.toList_ofList]
      rfl
    refine Or.inl ⟨String.ofList gap, hbefore, ?_⟩
    rw [hc, hbefore] at hn
    simpa only [String.append_assoc, String.append_right_inj] using hn.symm
  · have hafter : after = String.ofList gap ++ nonCriticalPlaceholder ++ after' := by
      apply String.toList_injective
      rw [hgap, String.toList_append, String.toList_append, String.toList_ofList]
      rfl
    refine Or.inr ⟨String.ofList gap, ?_, hafter⟩
    rw [hc, hafter] at hn
    simpa only [← String.append_assoc, String.append_left_inj] using hn.symm

theorem exists_inOrder {html : String} (hc : mentions criticalPlaceholder html = true)
    (hn : mentions nonCriticalPlaceholder html = true) : ∃ before between after,
      InOrder criticalPlaceholder nonCriticalPlaceholder html before between after ∨
        InOrder nonCriticalPlaceholder criticalPlaceholder html before between after := by
  obtain ⟨before, after, hcritical⟩ := exists_firstAt hc
  obtain ⟨before', after', hnonCritical⟩ := exists_firstAt hn
  rcases placeholders_apart hcritical.text_eq hnonCritical.text_eq with
    ⟨between, rfl, rfl⟩ | ⟨between, rfl, rfl⟩
  · exact ⟨_, _, _, Or.inr ⟨hnonCritical, hcritical⟩⟩
  · exact ⟨_, _, _, Or.inl ⟨hcritical, hnonCritical⟩⟩

/-! ## Filling in -/

/-- What a page becomes if the first occurrence of each placeholder in it is replaced and all else
stays. -/
inductive Filled (html critical nonCritical : String) : String → Prop
  | critical {before after : String} (hc : FirstAt criticalPlaceholder html before after)
      (hn : mentions nonCriticalPlaceholder html = false) :
      Filled html critical nonCritical (before ++ critical ++ after)
  | nonCritical {before after : String} (hn : FirstAt nonCriticalPlaceholder html before after)
      (hc : mentions criticalPlaceholder html = false) :
      Filled html critical nonCritical (before ++ nonCritical ++ after)
  | criticalFirst {before between after : String}
      (h : InOrder criticalPlaceholder nonCriticalPlaceholder html before between after) :
      Filled html critical nonCritical (before ++ critical ++ between ++ nonCritical ++ after)
  | nonCriticalFirst {before between after : String}
      (h : InOrder nonCriticalPlaceholder criticalPlaceholder html before between after) :
      Filled html critical nonCritical (before ++ nonCritical ++ between ++ critical ++ after)

/-- With the critical CSS filled in, there is a placeholder of the link in front of the page's own
one. -/
def Captured (html critical : String) : Prop :=
  ∃ before between after,
    InOrder criticalPlaceholder nonCriticalPlaceholder html before between after ∧
      mentions nonCriticalPlaceholder (before ++ critical ++ between) = true

theorem captured_iff {html before between after : String}
    (h : InOrder criticalPlaceholder nonCriticalPlaceholder html before between after)
    (critical : String) : Captured html critical ↔
      mentions nonCriticalPlaceholder (before ++ critical ++ between) = true := by
  constructor
  · rintro ⟨_, _, _, h', hmentions⟩
    obtain ⟨rfl, rfl, -⟩ := h.unique h'
    exact hmentions
  · exact fun hmentions => ⟨_, _, _, h, hmentions⟩

/-- The placeholder that was brought in is replaced, and the page's own stays. -/
theorem substitute_of_capture {html before between after critical kept rest : String}
    (h : InOrder criticalPlaceholder nonCriticalPlaceholder html before between after)
    (hcapture : FirstAt nonCriticalPlaceholder (before ++ critical ++ between) kept rest)
    (nonCritical : String) :
    substitute nonCriticalPlaceholder nonCritical (substitute criticalPlaceholder critical html)
      = kept ++ nonCritical ++ rest ++ nonCriticalPlaceholder ++ after := by
  have hfirst := hcapture.append (nonCriticalPlaceholder ++ after)
  rw [← String.append_assoc] at hfirst
  rw [h.substitute_eq, hfirst.substitute_eq]
  simp only [String.append_assoc]

theorem filled_of_mentions_both {html critical : String}
    (hc : mentions criticalPlaceholder html = true)
    (hn : mentions nonCriticalPlaceholder html = true) (hfree : ¬ Captured html critical)
    (nonCritical : String) : Filled html critical nonCritical
      (substitute nonCriticalPlaceholder nonCritical
        (substitute criticalPlaceholder critical html)) := by
  obtain ⟨before, between, after, h | h⟩ := exists_inOrder hc hn
  · rw [captured_iff h, Bool.not_eq_true] at hfree
    rw [h.substitute_eq, (firstAt_nonCriticalPlaceholder hfree after).substitute_eq]
    exact .criticalFirst h
  · -- What is put in stands behind the placeholder of the link.
    have hcritical : substitute criticalPlaceholder critical html
        = before ++ nonCriticalPlaceholder ++ (between ++ critical ++ after) := by
      rw [h.2.substitute_eq]
      simp only [String.append_assoc]
    rw [hcritical, (h.1.change_after _).substitute_eq, ← String.append_assoc, ← String.append_assoc]
    exact .nonCriticalFirst h

theorem exists_nonCriticalTag_eq_cons {css : String} (hcss : css ≠ "") (href : String) :
    ∃ tail, (nonCriticalTag css href).toList = '<' :: tail := by
  have hempty : css.isEmpty = false := by
    rwa [Bool.eq_false_iff, ne_eq, String.isEmpty_iff]
  rw [nonCriticalTag, hempty, if_neg Bool.false_ne_true]
  simp only [String.toList_append]
  exact ⟨_, rfl⟩

/-- A page whose own placeholder stays is not filled in, unless there is nothing to put in. -/
theorem not_filled_of_capture {html before between after critical kept rest nonCritical : String}
    {tail : List Char}
    (h : InOrder criticalPlaceholder nonCriticalPlaceholder html before between after)
    (hcapture : FirstAt nonCriticalPlaceholder (before ++ critical ++ between) kept rest)
    (htag : nonCritical.toList = '<' :: tail) :
    ¬ Filled html critical nonCritical
      (kept ++ nonCritical ++ rest ++ nonCriticalPlaceholder ++ after) := by
  intro hfilled
  generalize hresult : kept ++ nonCritical ++ rest ++ nonCriticalPlaceholder ++ after = result
    at hfilled
  cases hfilled with
  | critical hc hn =>
      rw [h.2.mentions_eq] at hn
      cases hn
  | nonCritical hn hc =>
      rw [h.1.mentions_eq] at hc
      cases hc
  | criticalFirst h' =>
      obtain ⟨rfl, rfl, rfl⟩ := h.unique h'
      -- At the same place one of the texts has the tag and the other one the placeholder.
      rw [String.append_left_inj] at hresult
      rw [hcapture.text_eq] at hresult
      simp only [String.append_assoc, String.append_right_inj] at hresult
      have hhead := congrArg (fun text => text.toList.head?) hresult
      simp [htag, nonCriticalPlaceholder] at hhead
  | nonCriticalFirst h' =>
      -- Each placeholder would stand in front of the other.
      have hc := congrArg String.length (h.1.unique h'.2).1
      have hn := congrArg String.length (h.2.unique h'.1).1
      have hlength : nonCriticalPlaceholder.length = 18 := rfl
      simp only [String.length_append] at hc hn
      omega

/-! ## Pages with and without placeholders -/

/-- Whether a page has a placeholder. -/
def Marked (html : String) : Prop :=
  mentions criticalPlaceholder html = true ∨ mentions nonCriticalPlaceholder html = true

theorem replacePlaceholders_of_mentions_both {html : String}
    (hc : mentions criticalPlaceholder html = true)
    (hn : mentions nonCriticalPlaceholder html = true)
    (criticalCss nonCriticalCss basePath : String) :
    replacePlaceholders html criticalCss nonCriticalCss basePath
      = substitute nonCriticalPlaceholder (nonCriticalTag nonCriticalCss (stylesheetHref basePath))
          (substitute criticalPlaceholder (criticalTag criticalCss) html) := by
  simp only [replacePlaceholders, hc, hn, Bool.or_true, if_true]

theorem filled_replacePlaceholders {html criticalCss : String} (hmarked : Marked html)
    (hfree : ¬ Captured html (criticalTag criticalCss)) (nonCriticalCss basePath : String) :
    Filled html (criticalTag criticalCss) (nonCriticalTag nonCriticalCss (stylesheetHref basePath))
      (replacePlaceholders html criticalCss nonCriticalCss basePath) := by
  by_cases hc : mentions criticalPlaceholder html = true
  · by_cases hn : mentions nonCriticalPlaceholder html = true
    · rw [replacePlaceholders_of_mentions_both hc hn]
      exact filled_of_mentions_both hc hn hfree _
    · obtain ⟨before, after, hfirst⟩ := exists_firstAt hc
      rw [Bool.not_eq_true] at hn
      simp only [replacePlaceholders, hc, hn, Bool.or_false, if_true, Bool.false_eq_true, if_false,
        hfirst.substitute_eq]
      exact .critical hfirst hn
  · have hn := hmarked.resolve_left hc
    obtain ⟨before, after, hfirst⟩ := exists_firstAt hn
    rw [Bool.not_eq_true] at hc
    simp only [replacePlaceholders, hc, hn, Bool.or_true, if_true, Bool.false_eq_true, if_false,
      hfirst.substitute_eq]
    exact .nonCritical hfirst hc

theorem replacePlaceholders_of_not_marked {html : String} (h : ¬ Marked html)
    (criticalCss nonCriticalCss basePath : String) :
    replacePlaceholders html criticalCss nonCriticalCss basePath
      = if criticalCss = "" ∧ nonCriticalCss = "" then html
        else inject html (criticalTag criticalCss
          ++ nonCriticalTag nonCriticalCss (stylesheetHref basePath)) := by
  obtain ⟨hc, hn⟩ := not_or.1 h
  rw [Bool.not_eq_true] at hc hn
  simp only [replacePlaceholders, hc, hn, Bool.or_false, Bool.false_eq_true, if_false,
    Bool.and_eq_true, String.isEmpty_iff]

/-- **Filling in the placeholders of a page.** If the page has one, the first occurrence of each is
replaced and all else stays, unless the replacement of the critical one brings in a placeholder of
the link: then that one is replaced, and the page's own stays. If the page has none, both tags are
put into it at one place, with a line break, or nothing if there is no CSS. -/
theorem replacePlaceholders_spec
    {html criticalCss nonCriticalCss basePath critical nonCritical result : String}
    (hcritical : criticalTag criticalCss = critical)
    (hnonCritical : nonCriticalTag nonCriticalCss (stylesheetHref basePath) = nonCritical)
    (hresult : replacePlaceholders html criticalCss nonCriticalCss basePath = result) :
    (Marked html →
      (¬ Captured html critical → Filled html critical nonCritical result) ∧
      (Captured html critical → ∃ before between after kept rest,
        InOrder criticalPlaceholder nonCriticalPlaceholder html before between after ∧
        FirstAt nonCriticalPlaceholder (before ++ critical ++ between) kept rest ∧
        result = kept ++ nonCritical ++ rest ++ nonCriticalPlaceholder ++ after ∧
        (nonCriticalCss ≠ "" → ¬ Filled html critical nonCritical result))) ∧
    (¬ Marked html →
      (criticalCss = "" ∧ nonCriticalCss = "" → result = html) ∧
      (criticalCss ≠ "" ∨ nonCriticalCss ≠ "" → ∃ before after, html = before ++ after ∧
        (result = before ++ (critical ++ nonCritical) ++ "\n" ++ after ∨
          result = before ++ "\n" ++ (critical ++ nonCritical) ++ after))) := by
  subst hcritical hnonCritical hresult
  constructor
  · intro hmarked
    refine ⟨fun hfree => filled_replacePlaceholders hmarked hfree _ _, ?_⟩
    rintro ⟨before, between, after, horder, hmentions⟩
    obtain ⟨kept, rest, hcapture⟩ := exists_firstAt hmentions
    have hresult := (replacePlaceholders_of_mentions_both horder.1.mentions_eq
      horder.2.mentions_eq criticalCss nonCriticalCss basePath).trans
      (substitute_of_capture horder hcapture _)
    refine ⟨before, between, after, kept, rest, horder, hcapture, hresult, fun hcss => ?_⟩
    obtain ⟨tail, htag⟩ := exists_nonCriticalTag_eq_cons hcss (stylesheetHref basePath)
    rw [hresult]
    exact not_filled_of_capture horder hcapture htag
  · intro hmarked
    rw [replacePlaceholders_of_not_marked hmarked]
    refine ⟨fun hempty => if_pos hempty, fun hcss => ?_⟩
    have hnot : ¬ (criticalCss = "" ∧ nonCriticalCss = "") := by
      rwa [not_and_or]
    rw [if_neg hnot]
    exact inject_eq html _

/-- CSS that quotes the placeholder of the link takes the link; other CSS does not. -/
theorem replacePlaceholders_spec_quoted :
    Filled "<head>$#critical-css$#non-critical-css</head>" "<style>.t\x7bgap:0\x7d</style>"
      (nonCriticalTag ".u" "styles.css") (replacePlaceholders
        "<head>$#critical-css$#non-critical-css</head>" ".t\x7bgap:0\x7d" ".u" "") ∧
    ¬ Filled "<head>$#critical-css$#non-critical-css</head>"
      "<style>.t::before\x7bcontent:'$#non-critical-css'\x7d</style>"
      (nonCriticalTag ".u" "styles.css") (replacePlaceholders
        "<head>$#critical-css$#non-critical-css</head>"
        ".t::before\x7bcontent:'$#non-critical-css'\x7d" ".u" "") ∧
    replacePlaceholders "<head></head>" "" "" "" = "<head></head>" := by
  have horder : InOrder criticalPlaceholder nonCriticalPlaceholder
      "<head>$#critical-css$#non-critical-css</head>" "<head>" "" "</head>" := by decide +kernel
  have hmarked : Marked "<head>$#critical-css$#non-critical-css</head>" :=
    Or.inl horder.1.mentions_eq
  have hcritical : criticalTag ".t\x7bgap:0\x7d" = "<style>.t\x7bgap:0\x7d</style>" := by
    decide +kernel
  have hquoting : criticalTag ".t::before\x7bcontent:'$#non-critical-css'\x7d"
      = "<style>.t::before\x7bcontent:'$#non-critical-css'\x7d</style>" := by decide +kernel
  have hlink : nonCriticalTag ".u" (stylesheetHref "") = nonCriticalTag ".u" "styles.css" := rfl
  refine ⟨((replacePlaceholders_spec hcritical hlink rfl).1 hmarked).1 ?_, ?_, ?_⟩
  · rw [captured_iff horder]
    decide +kernel
  · have hcaptured := (captured_iff horder
      "<style>.t::before\x7bcontent:'$#non-critical-css'\x7d</style>").2 (by decide +kernel)
    obtain ⟨_, _, _, _, _, -, -, -, hnot⟩ :=
      ((replacePlaceholders_spec hquoting hlink rfl).1 hmarked).2 hcaptured
    exact hnot (by decide)
  · have hunmarked : ¬ Marked "<head></head>" := by
      rw [Marked]
      decide +kernel
    have hresult : replacePlaceholders "<head></head>" "" "" ""
        = replacePlaceholders "<head></head>" "" "" "" := rfl
    exact ((replacePlaceholders_spec rfl rfl hresult).2 hunmarked).1 ⟨rfl, rfl⟩

end SiteCompiler.Page
