import SiteCompiler.Build.Page
import SiteCompiler.Proofs.FirstOccurrence
set_option autoImplicit false

/-! # The site's stylesheet and the CSS of its pages

The stylesheet of a site is made from the names that any page uses, each once, while a page is built
from its own names alone. Both come to the same chunks: collecting and splitting take the names one
by one (`fragments_eq_flatMap`, `demoted_eq_flatMap`), so the pages' chunks one after another are
those of all names, and repetitions make no difference to the first occurrences
(`siteChunks_eq`). So no fragment gets lost between a page and the stylesheet that it links to.
-/

namespace SiteCompiler

namespace CollectedCss

variable {registry : Registry} {aboveTheFold : List String} {layer : Layer}

/-- The collected critical chunks of a page that the split does not leave critical. -/
def demoted (registry : Registry) (aboveTheFold used : List String) : Chunks := fun layer =>
  ((collect registry used).critical layer).filter fun chunk =>
    !staysCritical registry aboveTheFold layer chunk

theorem mem_fragments {fragment : Candidate → Option String} {used : List String} {chunk : String} :
    chunk ∈ fragments registry fragment used layer ↔ ∃ name ∈ used, ∃ candidate,
      registry.get? name = some candidate ∧ candidate.layer = layer ∧
        fragment candidate = some chunk ∧ chunk ≠ "" := by
  simp only [fragments, List.mem_filterMap, List.mem_filter, Option.filter_eq_some_iff, beq_iff_eq,
    decide_eq_true_eq]
  constructor
  · rintro ⟨candidate, ⟨⟨name, hname, hcandidate⟩, hlayer⟩, hfragment, hne⟩
    exact ⟨name, hname, candidate, hcandidate, hlayer, hfragment, hne⟩
  · rintro ⟨name, hname, candidate, hcandidate, hlayer, hfragment, hne⟩
    exact ⟨candidate, ⟨⟨name, hname, hcandidate⟩, hlayer⟩, hfragment, hne⟩

/-! ## Name by name -/

theorem fragments_append (fragment : Candidate → Option String) (as bs : List String) :
    fragments registry fragment (as ++ bs) layer
      = fragments registry fragment as layer ++ fragments registry fragment bs layer := by
  simp only [fragments, List.filterMap_append, List.filter_append]

theorem fragments_eq_flatMap (fragment : Candidate → Option String) (used : List String) :
    fragments registry fragment used layer
      = used.flatMap fun name => fragments registry fragment [name] layer := by
  induction used with
  | nil => rfl
  | cons name used ih =>
      rw [List.flatMap_cons, ← ih]
      exact fragments_append fragment [name] used

theorem demoted_eq_flatMap (used : List String) :
    demoted registry aboveTheFold used layer
      = used.flatMap fun name => demoted registry aboveTheFold [name] layer := by
  show (fragments registry Candidate.criticalCss used layer).filter _ = _
  rw [fragments_eq_flatMap, List.filter_flatMap]
  rfl

end CollectedCss

namespace Build

open CollectedCss FirstOccurrence

variable {registry : Registry} {aboveTheFold : List String} {pages : List BuiltPage} {layer : Layer}

theorem pageCss_nonCritical (used : List String) :
    (pageCss registry aboveTheFold used).nonCritical layer
      = demoted registry aboveTheFold used layer ++ (collect registry used).nonCritical layer := rfl

/-- Chunks that are found name by name may be found page by page, repetitions left aside. -/
theorem eraseDups_usedByAny (chunks : List String → List String)
    (hchunks : ∀ used, chunks used = used.flatMap fun name => chunks [name]) :
    (chunks (usedByAny pages)).eraseDups
      = (pages.flatMap fun page => chunks page.usedCandidates).eraseDups := by
  calc (chunks (usedByAny pages)).eraseDups
      = ((usedByAny pages).flatMap fun name => chunks [name]).eraseDups := by rw [hchunks]
    _ = ((pages.flatMap BuiltPage.usedCandidates).flatMap fun name => chunks [name]).eraseDups :=
        eraseDups_flatMap_eraseDups _ _
    _ = (pages.flatMap fun page => chunks page.usedCandidates).eraseDups := by
        rw [List.flatMap_assoc]
        congr 2
        funext page
        exact (hchunks _).symm

/-- **The chunks of the site are the chunks of the pages**, demoted ones first, each once. -/
theorem siteChunks_eq : siteChunks registry aboveTheFold pages layer
    = ((pages.flatMap fun page => demoted registry aboveTheFold page.usedCandidates layer)
        ++ pages.flatMap fun page =>
          (collect registry page.usedCandidates).nonCritical layer).eraseDups := by
  rw [siteChunks, pageCss_nonCritical]
  refine eraseDups_append_congr ?_ ?_
  · exact eraseDups_usedByAny (fun used => demoted registry aboveTheFold used layer)
      demoted_eq_flatMap
  · exact eraseDups_usedByAny (fun used => (collect registry used).nonCritical layer)
      (fragments_eq_flatMap Candidate.nonCriticalCss)

/-! ## Where a chunk ends up -/

/-- The stylesheet of the site holds exactly what some page leaves to it. -/
theorem mem_siteChunks {chunk : String} : chunk ∈ siteChunks registry aboveTheFold pages layer ↔
    ∃ page ∈ pages,
      chunk ∈ (pageCss registry aboveTheFold page.usedCandidates).nonCritical layer := by
  rw [siteChunks_eq, List.mem_eraseDups, List.mem_append, List.mem_flatMap, List.mem_flatMap]
  constructor
  · rintro (⟨page, hpage, hchunk⟩ | ⟨page, hpage, hchunk⟩)
    · exact ⟨page, hpage, List.mem_append_left _ hchunk⟩
    · exact ⟨page, hpage, List.mem_append_right _ hchunk⟩
  · rintro ⟨page, hpage, hchunk⟩
    rcases List.mem_append.1 hchunk with hchunk | hchunk
    · exact Or.inl ⟨page, hpage, hchunk⟩
    · exact Or.inr ⟨page, hpage, hchunk⟩

/-- A critical fragment is critical on every page that uses its candidate, or it is demoted on all
of them. -/
theorem critical_or_mem_siteChunks {page : BuiltPage} (hpage : page ∈ pages) {name : String}
    (hname : name ∈ page.usedCandidates) {candidate : Candidate}
    (hcandidate : registry.get? name = some candidate) {chunk : String}
    (hchunk : candidate.criticalCss = some chunk) (hne : chunk ≠ "") :
    (∀ other ∈ pages, name ∈ other.usedCandidates →
      chunk ∈ (pageCss registry aboveTheFold other.usedCandidates).critical candidate.layer) ∨
    chunk ∈ siteChunks registry aboveTheFold pages candidate.layer := by
  have hcollected : ∀ used : List String, name ∈ used →
      chunk ∈ (collect registry used).critical candidate.layer := fun used hused =>
    mem_fragments.2 ⟨name, hused, candidate, hcandidate, rfl, hchunk, hne⟩
  by_cases hstays : staysCritical registry aboveTheFold candidate.layer chunk = true
  · -- Whether a chunk stays critical depends on its layer and text, not on the page.
    refine Or.inl fun other _ hother => ?_
    exact List.mem_filter.2 ⟨hcollected _ hother, hstays⟩
  · refine Or.inr (mem_siteChunks.2 ⟨page, hpage, List.mem_append_left _ ?_⟩)
    refine List.mem_filter.2 ⟨hcollected _ hname, ?_⟩
    simpa using hstays

/-- A chunk that is critical on a page gets into the stylesheet as a non-critical fragment only. -/
theorem nonCritical_of_mem_siteChunks {page : BuiltPage} {chunk : String}
    (hcritical : chunk ∈ (pageCss registry aboveTheFold page.usedCandidates).critical layer)
    (hsite : chunk ∈ siteChunks registry aboveTheFold pages layer) :
    ∃ other ∈ pages, chunk ∈ (collect registry other.usedCandidates).nonCritical layer := by
  have hstays := (List.mem_filter.1 hcritical).2
  obtain ⟨other, hother, hchunk⟩ := mem_siteChunks.1 hsite
  rcases List.mem_append.1 hchunk with hdemoted | hchunk
  · have hnot := (List.mem_filter.1 hdemoted).2
    rw [hstays] at hnot
    cases hnot
  · exact ⟨other, hother, hchunk⟩

theorem siteChunks_eq_nil_iff : (∀ layer, siteChunks registry aboveTheFold pages layer = []) ↔
    ∀ page ∈ pages, ∀ layer,
      (pageCss registry aboveTheFold page.usedCandidates).nonCritical layer = [] := by
  simp only [List.eq_nil_iff_forall_not_mem]
  constructor
  · intro h page hpage layer chunk hchunk
    exact h layer chunk (mem_siteChunks.2 ⟨page, hpage, hchunk⟩)
  · intro h layer chunk hchunk
    obtain ⟨page, hpage, hchunk⟩ := mem_siteChunks.1 hchunk
    exact h page hpage layer chunk hchunk

/-- **Pages and stylesheet agree, and no fragment is lost.** In each layer the chunks of the
stylesheet are the demoted critical chunks of the pages and then their non-critical chunks, each
once. Every fragment of a used candidate is critical on all pages that use it or in the stylesheet;
what is critical on a page is in the stylesheet only as a non-critical fragment; and there is
something in the stylesheet exactly if a page leaves something to it. -/
theorem siteChunks_exact (registry : Registry) (aboveTheFold : List String)
    (pages : List BuiltPage) :
    (∀ layer, siteChunks registry aboveTheFold pages layer
      = ((pages.flatMap fun page => demoted registry aboveTheFold page.usedCandidates layer)
          ++ pages.flatMap fun page =>
            (collect registry page.usedCandidates).nonCritical layer).eraseDups) ∧
    (∀ page ∈ pages, ∀ name ∈ page.usedCandidates, ∀ candidate,
      registry.get? name = some candidate → ∀ fragment, fragment ≠ "" →
      candidate.criticalCss = some fragment ∨ candidate.nonCriticalCss = some fragment →
      (∀ other ∈ pages, name ∈ other.usedCandidates →
        fragment ∈ (pageCss registry aboveTheFold other.usedCandidates).critical candidate.layer) ∨
      fragment ∈ siteChunks registry aboveTheFold pages candidate.layer) ∧
    (∀ layer, ∀ page ∈ pages,
      ∀ chunk ∈ (pageCss registry aboveTheFold page.usedCandidates).critical layer,
      chunk ∈ siteChunks registry aboveTheFold pages layer →
      ∃ other ∈ pages, ∃ name ∈ other.usedCandidates, ∃ candidate,
        registry.get? name = some candidate ∧ candidate.layer = layer ∧
          candidate.nonCriticalCss = some chunk) ∧
    ((∀ layer, siteChunks registry aboveTheFold pages layer = []) ↔
      ∀ page ∈ pages, ∀ layer,
        (pageCss registry aboveTheFold page.usedCandidates).nonCritical layer = []) := by
  refine ⟨fun layer => siteChunks_eq, ?_, ?_, siteChunks_eq_nil_iff⟩
  · rintro page hpage name hname candidate hcandidate fragment hne (hcritical | hnonCritical)
    · exact critical_or_mem_siteChunks hpage hname hcandidate hcritical hne
    · refine Or.inr (mem_siteChunks.2 ⟨page, hpage, List.mem_append_right _ ?_⟩)
      exact mem_fragments.2 ⟨name, hname, candidate, hcandidate, rfl, hnonCritical, hne⟩
  · intro layer page _ chunk hcritical hsite
    obtain ⟨other, hother, hchunk⟩ := nonCritical_of_mem_siteChunks hcritical hsite
    obtain ⟨name, hname, candidate, hcandidate, hlayer, hfragment, -⟩ := mem_fragments.1 hchunk
    exact ⟨other, hother, name, hname, candidate, hcandidate, hlayer, hfragment⟩

/-- One candidate's critical fragment is another one's non-critical fragment. -/
def sharingRegistry : Registry where
  candidates := [⟨"card", .components, some ".c{}", none⟩, ⟨"tile", .components, none, some ".c{}"⟩]

def sharingPages : List BuiltPage :=
  [{ relativePath := "a.html", html := "", criticalCssSize := 0
     usedCandidates := ["card"] },
   { relativePath := "b.html", html := "", criticalCssSize := 0
     usedCandidates := ["tile", "card"] }]

theorem siteChunks_exact_sharing :
    ".c{}" ∈ siteChunks sharingRegistry ["card"] sharingPages .components ∧
    ∃ page ∈ sharingPages, ∃ name ∈ page.usedCandidates, ∃ candidate,
      sharingRegistry.get? name = some candidate ∧ candidate.layer = .components ∧
        candidate.nonCriticalCss = some ".c{}" := by
  have hsite : ".c{}" ∈ siteChunks sharingRegistry ["card"] sharingPages .components := by
    decide +kernel
  refine ⟨hsite, ?_⟩
  exact (siteChunks_exact sharingRegistry ["card"] sharingPages).2.2.1 .components
    (sharingPages.head (by decide)) (by decide +kernel) ".c{}" (by decide +kernel) hsite

end Build

end SiteCompiler
