import SiteCompiler.Library.StandIn
import SiteCompiler.Proofs.Build.Run
import SiteCompiler.Proofs.Build.SiteChunks
import SiteCompiler.Proofs.Page.Placeholder
import SiteCompiler.Proofs.Stylesheet.Generate
set_option autoImplicit false

/-! # Where the link to the stylesheet leads

A page that links to the stylesheet leaves it some CSS, so the stylesheet is written
(`stylesheet_written`), if the minifier does not make it empty (`SiteContext.KeepsLayers`). Without
a base path the link is the bare file name, which a browser resolves against the directory of the
page: it leads to the stylesheet from the pages at the root of the site, and from no other page
(`stylesheetLink_resolves_iff`).
-/

namespace SiteCompiler.Build

/-- The segments of an address, empty ones included. -/
def addressSegments (address : String) : List String :=
  (address.toList.splitOn '/').map String.ofList

/-- The address, from the root of the site, of what a page refers to: the last segment of the page's
own address is replaced. -/
def resolveFrom (relativePath reference : String) : String :=
  String.intercalate "/" ((addressSegments relativePath).dropLast ++ [reference])

theorem dropLast_addressSegments_ne_nil {s : String} (h : '/' ∈ s.toList) :
    (addressSegments s).dropLast ≠ [] := by
  obtain ⟨before, after, hs⟩ := List.append_of_mem h
  have hrest : (after.splitOn '/').map String.ofList ≠ [] := by
    intro hnil
    exact List.splitOn_ne_nil '/' after (List.map_eq_nil_iff.1 hnil)
  rw [addressSegments, hs, List.splitOn_append_cons_self, List.map_append,
    List.dropLast_append_of_ne_nil hrest]
  intro hnil
  exact List.splitOn_ne_nil '/' before (List.map_eq_nil_iff.1 (List.append_eq_nil_iff.1 hnil).1)

/-- A bare file name is resolved to itself exactly on the pages at the root. -/
theorem resolveFrom_eq_self_iff {relativePath reference : String} (h : '/' ∉ reference.toList) :
    resolveFrom relativePath reference = reference ↔ '/' ∉ relativePath.toList := by
  constructor
  · intro heq hmem
    refine h ?_
    rw [← heq, resolveFrom, String.intercalate_append_of_ne_nil
      (dropLast_addressSegments_ne_nil hmem) (List.cons_ne_nil _ _)]
    simp
  · intro hmem
    rw [resolveFrom, addressSegments, List.splitOn_eq_singleton hmem]
    exact String.intercalate_singleton

variable {tree written : FileTree} {site : SiteContext} {files : List PageFile}
  {result : BuildResult}

/-- If the CSS of a site is minified, the minifier leaves something of it. -/
def SiteContext.KeepsLayers (site : SiteContext) : Prop :=
  site.settings.css.minify = true → Stylesheet.KeepsLayers site.libraries.minify

/-- Where a page has CSS to link to, the site has a stylesheet, and it is written. -/
theorem stylesheet_written (hkeeps : site.KeepsLayers)
    (hcompleted : Completed tree site files written result) {page : BuiltPage}
    (hpage : page ∈ result.pages) {nonCritical : String}
    (hnonCritical : Stylesheet.generate site.libraries.minify (pageCss (site.registry tree)
      result.criticalCandidates page.usedCandidates).nonCritical site.settings.css.minify
      = .ok nonCritical) (hne : nonCritical ≠ "") :
    .write (site.paths.outDir.join Page.stylesheetName) result.nonCriticalCss
      ∈ result.steps site.paths.outDir site.paths.cacheDir := by
  -- CSS that is not empty has chunks, and those of a page are among those of the site.
  have hchunks : ¬ ∀ layer, siteChunks (site.registry tree) result.criticalCandidates result.pages
      layer = [] := by
    intro hempty
    exact (Stylesheet.generate_ne_empty_iff hkeeps hnonCritical).1 hne
      (siteChunks_eq_nil_iff.1 hempty page hpage)
  have hstylesheet : result.nonCriticalCss ≠ "" :=
    (Stylesheet.generate_ne_empty_iff hkeeps hcompleted.stylesheet).2 hchunks
  have hhas : result.hasStylesheet = true := by
    simpa [BuildResult.hasStylesheet] using hstylesheet
  rw [BuildResult.steps, hhas, if_pos rfl]
  simp

/-- **Without a base path the link works at the root of the site only.** A page that takes the link
to the stylesheet has it in its text, and the build writes the stylesheet at the root of its output;
but the link leads there exactly if no directory stands in the page's own path. That there is a
stylesheet relies on the minifier, if there is one, not to make a stylesheet with chunks empty. -/
theorem stylesheetLink_resolves_iff (race : Race) (tree written : FileTree) (site : SiteContext)
    (result : BuildResult) (events : List Event) (hkeeps : site.KeepsLayers)
    (hbase : site.paths.basePath = "")
    (hrun : run race tree site = (written, .ok (result, events))) (page : BuiltPage)
    (hpage : page ∈ result.pages) :
    (∃ file expanded critical nonCritical,
      PageOrigin (site.pageContext tree (site.registry tree) result.criticalCandidates) file page
        expanded critical nonCritical) ∧
    ∀ file expanded critical nonCritical,
      PageOrigin (site.pageContext tree (site.registry tree) result.criticalCandidates) file page
        expanded critical nonCritical →
      Page.TakesLink expanded nonCritical →
      (∃ before after, page.html = before ++
        Page.nonCriticalTag nonCritical (Page.stylesheetHref site.paths.basePath) ++ after) ∧
      .write (site.paths.outDir.join Page.stylesheetName) result.nonCriticalCss
        ∈ result.steps site.paths.outDir site.paths.cacheDir ∧
      result.emit tree site.paths.outDir site.paths.cacheDir = (written, .ok ()) ∧
      (resolveFrom page.relativePath (Page.stylesheetHref site.paths.basePath)
        = Page.stylesheetName ↔ '/' ∉ page.relativePath.toList) := by
  rcases run_eq_ok hrun with hnone | ⟨files, hcompleted⟩
  · rw [hnone] at hpage
    cases hpage
  constructor
  · obtain ⟨file, -, hbuilt⟩ := Sequence.exists_of_mem_right hcompleted.built hpage
    obtain ⟨expanded, critical, nonCritical, horigin⟩ := page_eq_ok_iff.1 hbuilt
    exact ⟨file, expanded, critical, nonCritical, horigin⟩
  · intro file expanded critical nonCritical horigin hlink
    have hnonCritical := horigin.nonCritical_eq
    simp only [SiteContext.pageContext] at hnonCritical
    have hwritten := stylesheet_written hkeeps hcompleted hpage hnonCritical hlink.1
    refine ⟨?_, hwritten, hcompleted.emitted, ?_⟩
    · rw [horigin.html_eq]
      exact Page.replacePlaceholders_of_takesLink hlink critical site.paths.basePath
    · have hhref : Page.stylesheetHref site.paths.basePath = Page.stylesheetName := by
        rw [hbase]
        rfl
      rw [hhref]
      exact resolveFrom_eq_self_iff (by decide)

/-- A site whose only page stands in a directory. -/
def nestedTree : FileTree where
  entries := [(["pages"], .directory), (["pages", "blog"], .directory),
    (["pages", "blog", "x.html"], .file "<p class=t>".toUTF8), (["candidates"], .directory),
    (["candidates", "utils"], .directory), (["candidates", "utils", "t"], .directory),
    (["candidates", "utils", "t", "non-critical.css"], .file ".t\x7bgap:0\x7d".toUTF8)]

def nestedSite : SiteContext where
  libraries := .standIn
  paths := { srcRoot := ⟨""⟩, outDir := ⟨"dist"⟩, cacheDir := ⟨"cache"⟩, basePath := "" }
  settings := .default

def nestedPage : BuiltPage where
  relativePath := "blog/x.html"
  html := Page.nonCriticalTag ".t" "styles.css" ++ "\n<p class=t>"
  criticalCssSize := 0
  usedCandidates := ["t"]

theorem run_nestedTree : ∃ written result events,
    run .inOrder nestedTree nestedSite = (written, .ok (result, events)) ∧
      result.pages = [nestedPage] ∧ result.criticalCandidates = [] := by
  have hresult : ((run .inOrder nestedTree nestedSite).2.map fun built =>
      (built.1.pages, built.1.criticalCandidates)) = .ok ([nestedPage], []) := by
    decide +kernel
  obtain ⟨written, result, events, hrun, hfacts⟩ := exists_of_run
    (fun result => (result.pages, result.criticalCandidates)) hresult
  obtain ⟨hpages, hcritical⟩ := Prod.mk.inj hfacts
  exact ⟨written, result, events, hrun, hpages, hcritical⟩

theorem origin_nestedPage :
    PageOrigin (nestedSite.pageContext nestedTree (nestedSite.registry nestedTree) [])
      ⟨"blog/x.html", ⟨"pages/blog/x.html"⟩⟩ nestedPage "<p class=t>" ""
      "@layer global,layout,components;@layer utils\x7b.t\x7bgap:0\x7d\x7d" := by
  have hregistry : nestedSite.registry nestedTree
      = ⟨[⟨"t", .utils, none, some ".t\x7bgap:0\x7d"⟩]⟩ :=
    congrArg Registry.mk (by decide +kernel)
  rw [hregistry]
  have hread : nestedTree.readText ⟨"pages/blog/x.html"⟩ = .ok "<p class=t>" := by decide +kernel
  have hcompile : Template.compile nestedTree nestedSite.templatesDir "<p class=t>"
      = .ok "<p class=t>" := by
    decide +kernel
  exact
    { expands := ⟨_, hread, hcompile⟩
      used_eq := by decide +kernel
      critical_eq := by decide +kernel
      nonCritical_eq := by decide +kernel
      relativePath_eq := rfl
      html_eq := by decide +kernel
      size_eq := rfl }

/-- A page below a directory links to a file beside it, and the stylesheet is written elsewhere. -/
theorem stylesheetLink_resolves_iff_nested : ∃ written result events,
    run .inOrder nestedTree nestedSite = (written, .ok (result, events)) ∧ ∃ page ∈ result.pages,
      .write (nestedSite.paths.outDir.join Page.stylesheetName) result.nonCriticalCss
        ∈ result.steps nestedSite.paths.outDir nestedSite.paths.cacheDir ∧
      resolveFrom page.relativePath (Page.stylesheetHref nestedSite.paths.basePath)
        ≠ Page.stylesheetName := by
  obtain ⟨written, result, events, hrun, hpages, hcritical⟩ := run_nestedTree
  have hpage : nestedPage ∈ result.pages := by
    rw [hpages]
    exact List.mem_singleton_self _
  have horigin := origin_nestedPage
  rw [← hcritical] at horigin
  obtain ⟨-, hwritten, -, hresolves⟩ := (stylesheetLink_resolves_iff .inOrder nestedTree written
    nestedSite result events (fun _ => Stylesheet.keepsLayers_minify) rfl hrun nestedPage hpage).2
      _ _ _ _ horigin (by decide +kernel)
  refine ⟨written, result, events, hrun, nestedPage, hpage, hwritten, fun heq => ?_⟩
  exact hresolves.1 heq (by decide +kernel)

end SiteCompiler.Build
