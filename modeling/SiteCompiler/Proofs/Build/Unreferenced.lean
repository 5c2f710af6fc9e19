import SiteCompiler.Library.StandIn
import SiteCompiler.Proofs.Build.Run
import SiteCompiler.Proofs.Build.SiteChunks
import SiteCompiler.Proofs.Candidate.Usage
set_option autoImplicit false

/-! # Candidates that no document refers to

A build asks the registry about the class words of its documents, and about the owners of the
critical fragments that it has collected for them. Two registries that agree on these words
(`Registry.AgreeAt`) give the same build, step by step up to `compileWith_congr`. So a candidate
that no document refers to, and whose critical fragment is no other candidate's, may stand anywhere
in the registry without making a difference (`compileWith_insert`).
-/

namespace SiteCompiler

/-- The registries say the same of a name and of who owns the critical fragment of its candidate. -/
structure Registry.AgreeAt (registry registry' : Registry) (name : String) : Prop where
  get?_eq : registry'.get? name = registry.get? name
  owner_eq : ∀ candidate, registry.get? name = some candidate → ∀ chunk,
    candidate.criticalCss = some chunk →
    registry'.criticalOwner? candidate.layer chunk = registry.criticalOwner? candidate.layer chunk

variable {registry registry' : Registry} {name : String}

theorem Registry.contains_eq_isSome : registry.contains name = (registry.get? name).isSome := by
  rw [Registry.contains, Registry.get?, List.isSome_find?]

theorem Registry.AgreeAt.contains_eq (h : registry.AgreeAt registry' name) :
    registry'.contains name = registry.contains name := by
  rw [Registry.contains_eq_isSome, h.get?_eq, Registry.contains_eq_isSome]

/-! ## Pages with two registries -/

namespace Candidate

variable {parse : String → List Html.Node} {html : String}

theorem used_congr
    (h : ∀ name ∈ Html.nodesClasses (parse html), registry.AgreeAt registry' name) :
    used parse registry' html = used parse registry html := by
  rw [used, used, usedIn_eq, usedIn_eq]
  exact congrArg List.eraseDups (List.filter_congr fun name hname => (h name hname).contains_eq)

theorem used_subset : used parse registry html ⊆ Html.nodesClasses (parse html) := by
  intro name hname
  rw [used, usedIn_eq, List.mem_eraseDups, List.mem_filter] at hname
  exact hname.1

end Candidate

namespace CollectedCss

variable {used aboveTheFold : List String} {layer : Layer} {chunk : String}

theorem fragments_congr {fragment : Candidate → Option String}
    (h : ∀ name ∈ used, registry.AgreeAt registry' name) :
    fragments registry' fragment used = fragments registry fragment used := by
  funext layer
  unfold fragments
  rw [List.filterMap_congr fun name hname => (h name hname).get?_eq]

/-- What has been collected stays critical with both registries or with neither. -/
theorem staysCritical_congr (h : ∀ name ∈ used, registry.AgreeAt registry' name)
    (hchunk : chunk ∈ fragments registry Candidate.criticalCss used layer) :
    staysCritical registry' aboveTheFold layer chunk
      = staysCritical registry aboveTheFold layer chunk := by
  obtain ⟨name, hname, candidate, hcandidate, rfl, hcritical, -⟩ := mem_fragments.1 hchunk
  unfold staysCritical
  rw [(h name hname).owner_eq candidate hcandidate chunk hcritical]

end CollectedCss

namespace Build

open CollectedCss

variable {race : Race} {tree : FileTree} {site : SiteContext} {aboveTheFold : List String}

theorem pageCss_congr {used : List String} (h : ∀ name ∈ used, registry.AgreeAt registry' name) :
    pageCss registry' aboveTheFold used = pageCss registry aboveTheFold used := by
  have hcollect : collect registry' used = collect registry used := by
    unfold collect
    rw [fragments_congr h, fragments_congr h]
  rw [pageCss, pageCss, hcollect, split, split]
  congr 1
  · funext layer
    exact List.filter_congr fun chunk hchunk => staysCritical_congr h hchunk
  · funext layer
    congr 1
    exact List.filter_congr fun chunk hchunk => by rw [staysCritical_congr h hchunk]

/-- The class words of the expanded document at a path. A document that cannot be read or expanded
has none. -/
def documentWords (site : SiteContext) (tree : FileTree) (path : Path) : List String :=
  match tree.readText path with
  | .error _ => []
  | .ok html =>
      match Template.compile tree site.templatesDir html with
      | .error _ => []
      | .ok expanded => Html.nodesClasses (site.libraries.parseHtml expanded)

theorem documentWords_eq {path : Path} {html expanded : String}
    (hread : tree.readText path = .ok html)
    (hcompile : Template.compile tree site.templatesDir html = .ok expanded) :
    documentWords site tree path = Html.nodesClasses (site.libraries.parseHtml expanded) := by
  simp only [documentWords, hread, hcompile]

theorem finishPage_congr {relativePath expanded : String}
    (h : ∀ name ∈ Html.nodesClasses (site.libraries.parseHtml expanded),
      registry.AgreeAt registry' name) :
    finishPage (site.pageContext tree registry' aboveTheFold) relativePath expanded
      = finishPage (site.pageContext tree registry aboveTheFold) relativePath expanded := by
  have hcss : pageCss registry' aboveTheFold
        (Candidate.used site.libraries.parseHtml registry expanded)
      = pageCss registry aboveTheFold
        (Candidate.used site.libraries.parseHtml registry expanded) :=
    pageCss_congr fun name hname => h name (Candidate.used_subset hname)
  simp only [finishPage, SiteContext.pageContext, Candidate.used_congr h, hcss]

theorem page_congr {file : PageFile}
    (h : ∀ name ∈ documentWords site tree file.path,
      registry.AgreeAt registry' name) :
    page (site.pageContext tree registry' aboveTheFold) file
      = page (site.pageContext tree registry aboveTheFold) file := by
  unfold page
  simp only [SiteContext.pageContext]
  cases hread : tree.readText file.path with
  | error e => rfl
  | ok html =>
      dsimp only
      generalize hcompile : Template.compile tree site.templatesDir html = outcome
      cases outcome with
      | error e => rfl
      | ok expanded =>
          rw [documentWords_eq hread hcompile] at h
          have hfinish : finishPage (site.pageContext tree registry' aboveTheFold) file.relativePath
              expanded = finishPage (site.pageContext tree registry aboveTheFold) file.relativePath
              expanded := finishPage_congr h
          simp only [SiteContext.pageContext] at hfinish
          simp only [hfinish]

theorem aboveTheFold_congr
    (h : ∀ name ∈ documentWords site tree site.probe,
      registry.AgreeAt registry' name) :
    Build.aboveTheFold site.libraries tree site.probe site.templatesDir registry'
      = Build.aboveTheFold site.libraries tree site.probe site.templatesDir registry := by
  unfold Build.aboveTheFold
  cases hread : tree.readText site.probe with
  | error e => rfl
  | ok html =>
      dsimp only
      generalize hcompile : Template.compile tree site.templatesDir html = outcome
      cases outcome with
      | error e => simp only [bind, Except.bind]
      | ok expanded =>
          rw [documentWords_eq hread hcompile] at h
          simp only [bind, Except.bind, Candidate.used_congr h]

/-! ## Sites with two registries -/

theorem siteStylesheet_congr {libraries : Libraries} {pages : List BuiltPage} {minified : Bool}
    (h : ∀ page ∈ pages, ∀ name ∈ page.usedCandidates, registry.AgreeAt registry' name) :
    siteStylesheet libraries registry' aboveTheFold pages minified
      = siteStylesheet libraries registry aboveTheFold pages minified := by
  have hcss : pageCss registry' aboveTheFold (usedByAny pages)
      = pageCss registry aboveTheFold (usedByAny pages) := by
    refine pageCss_congr fun name hname => ?_
    obtain ⟨page, hpage, hname⟩ := List.mem_flatMap.1 (List.mem_eraseDups.1 hname)
    exact h page hpage name hname
  unfold siteStylesheet siteChunks
  rw [hcss]

/-- The candidates of a built page are class words of its document. -/
theorem usedCandidates_subset {file : PageFile} {built : BuiltPage}
    (h : page (site.pageContext tree registry aboveTheFold) file = .ok built) :
    built.usedCandidates ⊆ documentWords site tree file.path := by
  obtain ⟨expanded, critical, nonCritical, horigin⟩ := page_eq_ok_iff.1 h
  obtain ⟨html, hread, hcompile⟩ := horigin.expands
  have hwords : documentWords site tree file.path
      = Html.nodesClasses (site.libraries.parseHtml expanded) := documentWords_eq hread hcompile
  rw [hwords, horigin.used_eq]
  exact Candidate.used_subset

/-- The class words of the documents of a site: its probe and its pages, all of them expanded. -/
def SiteContext.words (site : SiteContext) (tree : FileTree) : List String :=
  match PageFile.scan tree site.pagesDir with
  | .error _ => []
  | .ok files => (site.probe :: files.map PageFile.path).flatMap (documentWords site tree)

theorem compilePages_congr {files : List PageFile}
    (hprobe : ∀ name ∈ documentWords site tree site.probe,
      registry.AgreeAt registry' name)
    (hfiles : ∀ file ∈ files, ∀ name ∈ documentWords site tree file.path,
      registry.AgreeAt registry' name) :
    compilePages race tree site registry' files = compilePages race tree site registry files := by
  unfold compilePages
  rw [aboveTheFold_congr hprobe]
  cases Build.aboveTheFold site.libraries tree site.probe site.templatesDir registry with
  | error e => rfl
  | ok found =>
      obtain ⟨critical, probeEvents⟩ := found
      have hpages : files.map (page (site.pageContext tree registry' critical))
          = files.map (page (site.pageContext tree registry critical)) :=
        List.map_congr_left fun file hfile => page_congr (hfiles file hfile)
      simp only [hpages]
      cases hbuilt : race.collect (files.map (page (site.pageContext tree registry critical))) with
      | error e => simp only [bind, Except.bind]
      | ok pages =>
          have hstylesheet : siteStylesheet site.libraries registry' critical pages
              site.settings.css.minify
              = siteStylesheet site.libraries registry critical pages
                site.settings.css.minify := by
            refine siteStylesheet_congr fun built hmem name hname => ?_
            obtain ⟨file, hfile, hpage⟩ :=
              Sequence.exists_of_mem_right (collect_map_eq_ok_iff.1 hbuilt) hmem
            exact hfiles file hfile name (usedCandidates_subset hpage hname)
          simp only [bind, Except.bind, hstylesheet]

/-- A build depends on the registry only in what it says of the class words of the site. -/
theorem compileWith_congr (h : ∀ name ∈ site.words tree, registry.AgreeAt registry' name) :
    compileWith race tree site registry' = compileWith race tree site registry := by
  unfold compileWith
  cases hscan : PageFile.scan tree site.pagesDir with
  | error e => rfl
  | ok files =>
      have hwords : site.words tree = (site.probe :: files.map PageFile.path).flatMap
          (documentWords site tree) := by
        rw [SiteContext.words, hscan]
      have hpages : compilePages race tree site registry' files
          = compilePages race tree site registry files := by
        refine compilePages_congr (fun name hname => h name ?_) fun file hfile name hname =>
          h name ?_
        · rw [hwords]
          exact List.mem_flatMap.2 ⟨_, List.mem_cons_self, hname⟩
        · rw [hwords]
          exact List.mem_flatMap.2
            ⟨_, List.mem_cons_of_mem _ (List.mem_map_of_mem hfile), hname⟩
      cases files with
      | nil => rfl
      | cons file files =>
          dsimp only
          rw [hpages]

/-! ## A candidate more -/

section

variable {before after : List Candidate} {extra : Candidate}

theorem get?_insert (h : name ≠ extra.name) :
    (Registry.mk (before ++ extra :: after)).get? name
      = (Registry.mk (before ++ after)).get? name := by
  have hne : (extra.name == name) = false := beq_eq_false_iff_ne.2 (Ne.symm h)
  simp only [Registry.get?, List.find?_append, List.find?_cons, hne]

/-- A candidate that does not have a fragment as its critical one is not the owner of it. -/
theorem criticalOwner?_insert {layer : Layer} {chunk : String}
    (h : ¬ (extra.layer = layer ∧ extra.criticalCss = some chunk)) :
    (Registry.mk (before ++ extra :: after)).criticalOwner? layer chunk
      = (Registry.mk (before ++ after)).criticalOwner? layer chunk := by
  have hnot : (extra.layer == layer && extra.criticalCss == some chunk) = false := by
    rw [Bool.eq_false_iff]
    intro htest
    rw [Bool.and_eq_true, beq_iff_eq, beq_iff_eq] at htest
    exact h htest
  simp only [Registry.criticalOwner?, List.find?_append, List.find?_cons, hnot]

theorem agreeAt_insert (hname : name ≠ extra.name)
    (hdistinct : ∀ other ∈ before ++ after, other.layer = extra.layer → ∀ chunk,
      extra.criticalCss = some chunk → other.criticalCss ≠ some chunk) :
    (Registry.mk (before ++ after)).AgreeAt (Registry.mk (before ++ extra :: after)) name where
  get?_eq := get?_insert hname
  owner_eq := by
    intro candidate hcandidate chunk hchunk
    refine criticalOwner?_insert ?_
    rintro ⟨hlayer, hextra⟩
    have hmem := List.mem_of_find?_eq_some hcandidate
    exact hdistinct candidate hmem hlayer.symm chunk hextra hchunk

end

/-- **Candidates that are not referred to make no difference.** A candidate is added to a registry,
in any place. If its name is no class word of an expanded document of the site, and its critical
fragment is that of no other candidate in its layer, then the site compiles to the same pages, the
same stylesheet and the same reports, whatever the races would have been; and if pages fail, the
same race ends in the same error, so that the errors that can come out are the same. -/
theorem compileWith_insert (tree : FileTree) (site : SiteContext) (before after : List Candidate)
    (extra : Candidate) (hunused : extra.name ∉ site.words tree)
    (hdistinct : ∀ other ∈ before ++ after, other.layer = extra.layer → ∀ chunk,
      extra.criticalCss = some chunk → other.criticalCss ≠ some chunk) :
    (∀ race, compileWith race tree site ⟨before ++ extra :: after⟩
      = compileWith race tree site ⟨before ++ after⟩) ∧
    ∀ race race' built, compileWith race tree site ⟨before ++ after⟩ = .ok built →
      compileWith race' tree site ⟨before ++ extra :: after⟩ = .ok built := by
  have hsame (race : Race) : compileWith race tree site ⟨before ++ extra :: after⟩
      = compileWith race tree site ⟨before ++ after⟩ := by
    refine compileWith_congr fun name hname => agreeAt_insert ?_ hdistinct
    rintro rfl
    exact hunused hname
  refine ⟨hsame, fun race race' built hbuilt => ?_⟩
  rw [hsame race']
  exact compileWith_of_compileWith hbuilt race'

/-- A site whose page uses one of two candidates. -/
def badgeTree : FileTree where
  entries := [(["pages"], .directory), (["pages", "x.html"], .file "<p class=badge>".toUTF8)]

def badgeSite : SiteContext where
  libraries := .standIn
  paths := { srcRoot := ⟨""⟩, outDir := ⟨"dist"⟩, cacheDir := ⟨"cache"⟩, basePath := "" }
  settings := .default

def badge : Candidate := ⟨"badge", .utils, some ".b\x7bgap:0\x7d", none⟩

def modal : Candidate := ⟨"modal", .utils, some ".m\x7bgap:0\x7d", none⟩

/-- The other candidate stands in front, so that every search meets it first. -/
theorem compileWith_insert_badgeTree :
    modal.name ∉ badgeSite.words badgeTree ∧
      ∃ built, compileWith .inOrder badgeTree badgeSite ⟨[] ++ [badge]⟩ = .ok built ∧
        ∀ race, compileWith race badgeTree badgeSite ⟨[] ++ modal :: [badge]⟩ = .ok built := by
  have hunused : modal.name ∉ badgeSite.words badgeTree := by decide +kernel
  have hresult : ((compileWith .inOrder badgeTree badgeSite ⟨[] ++ [badge]⟩).map fun built =>
      built.1.pages.length) = .ok 1 := by
    decide +kernel
  obtain ⟨built, hbuilt, -⟩ := Sequence.map_eq_ok_iff.1 hresult
  obtain ⟨-, hsame⟩ := compileWith_insert badgeTree badgeSite [] [badge] modal hunused (by decide)
  exact ⟨hunused, built, hbuilt, fun race => hsame .inOrder race built hbuilt⟩

end Build

end SiteCompiler
