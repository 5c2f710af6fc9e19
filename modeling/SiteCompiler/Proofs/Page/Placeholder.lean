import SiteCompiler.Page.Placeholder
import SiteCompiler.Proofs.Text.Search
set_option autoImplicit false

/-! # Where the link to the stylesheet goes

A placeholder is replaced where it first stands (`FirstAt`), and the tags for a page without
placeholders are put into it at one place (`inject_eq`). A page takes the link if there is CSS to
link to, and the page has the placeholder for it or no placeholder at all (`TakesLink`). Then the
link stands in the result (`replacePlaceholders_of_takesLink`); otherwise the result is that of a
page without such CSS.
-/

namespace SiteCompiler.Page

/-! ## First occurrences -/

/-- The first occurrence of `needle` in a text: `before` stands in front of it, `after` behind. -/
structure FirstAt (needle text before after : String) : Prop where
  text_eq : text = before ++ needle ++ after
  first : ∀ before' after', text = before' ++ needle ++ after' → before.length ≤ before'.length

theorem firstAt_iff {needle text before after : String} : FirstAt needle text before after ↔
    Text.breakOn? needle.toList text.toList = some (before.toList, after.toList) := by
  rw [Text.breakOn?_eq_some_iff]
  constructor
  · rintro ⟨rfl, hfirst⟩
    refine ⟨by simp only [String.toList_append], fun before' after' heq => ?_⟩
    have hle := hfirst (String.ofList before') (String.ofList after')
      (String.toList_injective (by simp [← heq]))
    rwa [String.length_ofList, ← String.length_toList] at hle
  · rintro ⟨heq, hfirst⟩
    refine ⟨String.toList_injective (by simp [← heq]), fun before' after' heq' => ?_⟩
    have hle := hfirst before'.toList after'.toList (by simp [heq'])
    rwa [String.length_toList, String.length_toList] at hle

instance (needle text before after : String) : Decidable (FirstAt needle text before after) :=
  decidable_of_iff _ firstAt_iff.symm

theorem exists_firstAt {needle text : String} (h : mentions needle text = true) :
    ∃ before after, FirstAt needle text before after := by
  obtain ⟨⟨before, after⟩, hcut⟩ := Option.isSome_iff_exists.1 h
  refine ⟨String.ofList before, String.ofList after, firstAt_iff.2 ?_⟩
  rwa [String.toList_ofList, String.toList_ofList]

namespace FirstAt

variable {needle text before after : String}

theorem substitute_eq (h : FirstAt needle text before after) (replacement : String) :
    substitute needle replacement text = before ++ replacement ++ after := by
  rw [substitute, Text.replaceFirst, firstAt_iff.1 h]
  apply String.toList_injective
  simp

/-- What stands behind the first occurrence has no say in where it is. -/
theorem change_after (h : FirstAt needle text before after) (more : String) :
    FirstAt needle (before ++ needle ++ more) before more := by
  rw [firstAt_iff, String.toList_append, String.toList_append]
  exact Text.breakOn?_append (firstAt_iff.1 h) more.toList

theorem append (h : FirstAt needle text before after) (more : String) :
    FirstAt needle (text ++ more) before (after ++ more) := by
  rw [h.text_eq, String.append_assoc]
  exact h.change_after (after ++ more)

theorem unique {before' after' : String} (h : FirstAt needle text before after)
    (h' : FirstAt needle text before' after') : before = before' ∧ after = after' := by
  have hcut := (firstAt_iff.1 h).symm.trans (firstAt_iff.1 h')
  simpa only [Option.some.injEq, Prod.mk.injEq, String.toList_inj] using hcut

theorem mentions_eq (h : FirstAt needle text before after) : mentions needle text = true := by
  rw [mentions, Text.occursIn, firstAt_iff.1 h]
  rfl

end FirstAt

theorem substitute_of_mentions {needle text : String} (h : mentions needle text = true)
    (replacement : String) : ∃ before after, text = before ++ needle ++ after ∧
      substitute needle replacement text = before ++ replacement ++ after := by
  obtain ⟨before, after, hfirst⟩ := exists_firstAt h
  exact ⟨before, after, hfirst.text_eq, hfirst.substitute_eq replacement⟩

/-- The placeholder of the link is still there when the other one has been replaced: the two begin
with a character that they contain nowhere else, so they do not overlap. -/
theorem mentions_substitute_criticalPlaceholder {html : String}
    (h : mentions nonCriticalPlaceholder html = true) (replacement : String) :
    mentions nonCriticalPlaceholder (substitute criticalPlaceholder replacement html) = true := by
  have hkept := @Text.occursIn_replaceFirst '$' criticalPlaceholder.toList.tail
    nonCriticalPlaceholder.toList.tail html.toList (by decide) (by decide) (by decide) (by decide) h
    replacement.toList
  rw [mentions, substitute, String.toList_ofList]
  exact hkept

/-! ## Tags in a page without placeholders -/

/-- Tags are put into a page at one place, together with a line break. -/
theorem inject_eq (html tags : String) : ∃ before after, html = before ++ after ∧
    (inject html tags = before ++ tags ++ "\n" ++ after ∨
      inject html tags = before ++ "\n" ++ tags ++ after) := by
  unfold inject
  split
  · next h =>
      obtain ⟨before, after, hhtml, hresult⟩ := substitute_of_mentions h (tags ++ "\n</head>")
      have hbreak : "\n</head>" = "\n" ++ "</head>" := rfl
      refine ⟨before, "</head>" ++ after, by rw [hhtml, String.append_assoc], Or.inl ?_⟩
      rw [hresult, hbreak]
      simp only [String.append_assoc]
  · split
    · next h =>
        obtain ⟨before, after, hhtml, hresult⟩ := substitute_of_mentions h ("<head>\n" ++ tags)
        have hbreak : "<head>\n" = "<head>" ++ "\n" := rfl
        refine ⟨before ++ "<head>", after, hhtml, Or.inr ?_⟩
        rw [hresult, hbreak]
        simp only [String.append_assoc]
    · exact ⟨"", html, by rw [String.empty_append], Or.inl (by rw [String.empty_append])⟩

/-- Tags that are put into a page stand in it. -/
theorem exists_inject (html tags : String) :
    ∃ before after, inject html tags = before ++ tags ++ after := by
  obtain ⟨before, after, -, hresult | hresult⟩ := inject_eq html tags
  · exact ⟨before, "\n" ++ after, by rw [hresult, ← String.append_assoc]⟩
  · exact ⟨before ++ "\n", after, hresult⟩

/-! ## The link -/

/-- Whether the link to the stylesheet goes into a page. -/
def TakesLink (html nonCriticalCss : String) : Prop :=
  nonCriticalCss ≠ "" ∧ (mentions nonCriticalPlaceholder html = true ∨
    mentions criticalPlaceholder html = false)

instance (html nonCriticalCss : String) : Decidable (TakesLink html nonCriticalCss) :=
  inferInstanceAs (Decidable (_ ∧ _))

theorem replacePlaceholders_of_takesLink {html nonCriticalCss : String}
    (h : TakesLink html nonCriticalCss) (criticalCss basePath : String) :
    ∃ before after, replacePlaceholders html criticalCss nonCriticalCss basePath
      = before ++ nonCriticalTag nonCriticalCss (stylesheetHref basePath) ++ after := by
  obtain ⟨hcss, hplace⟩ := h
  have hempty : nonCriticalCss.isEmpty = false := by
    rwa [Bool.eq_false_iff, ne_eq, String.isEmpty_iff]
  unfold replacePlaceholders
  by_cases hnon : mentions nonCriticalPlaceholder html = true
  · simp only [hnon, Bool.or_true, if_true]
    split
    · -- Both placeholders are replaced, the one for the link in what the first step has left.
      have hleft := mentions_substitute_criticalPlaceholder hnon (criticalTag criticalCss)
      obtain ⟨before, after, -, hresult⟩ := substitute_of_mentions hleft
        (nonCriticalTag nonCriticalCss (stylesheetHref basePath))
      exact ⟨before, after, hresult⟩
    · obtain ⟨before, after, -, hresult⟩ := substitute_of_mentions hnon
        (nonCriticalTag nonCriticalCss (stylesheetHref basePath))
      exact ⟨before, after, hresult⟩
  · have hcritical : mentions criticalPlaceholder html = false := hplace.resolve_left hnon
    simp only [Bool.not_eq_true] at hnon
    simp only [hcritical, hnon, hempty, Bool.or_false, Bool.and_false, Bool.false_eq_true, if_false]
    obtain ⟨before, after, hresult⟩ := exists_inject html
      (criticalTag criticalCss ++ nonCriticalTag nonCriticalCss (stylesheetHref basePath))
    exact ⟨before ++ criticalTag criticalCss, after, by
      rw [hresult]
      simp only [String.append_assoc]⟩

end SiteCompiler.Page
