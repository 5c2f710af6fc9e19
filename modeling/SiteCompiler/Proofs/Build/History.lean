import SiteCompiler.Library.StandIn
import SiteCompiler.Proofs.Build.Layout
set_option autoImplicit false

/-! # The stylesheet over many builds

Between two builds the sources of a site change, and each build meets the output of the ones before
it. A build with CSS to link to writes the stylesheet; a build without leaves what it finds. So the
stylesheet that stands in the output directory is the one that was written last
(`History.sheet_iff`), and after a build without such CSS it may be that of an earlier one
(`sheet_of_run`).
-/

namespace SiteCompiler

open FileTree SiteCompiler.Path

/-- Where the stylesheet stands. -/
def sheetPlace (outDir : Path) : Location := outDir.names ++ [OsText.ofText Page.stylesheetName]

namespace BuildResult

variable {tree : FileTree} {outDir cacheDir : Path} {result : BuildResult} {bytes : ByteArray}

theorem not_brought_pagePart_sheet (hlayout : IsLayout result.pages) (hout : outDir.IsPlain) :
    ¬ Brought (result.pagePart outDir) (sheetPlace outDir) (.file bytes) := by
  rw [brought_pagePart_file_iff hlayout hout]
  rintro ⟨page, hpage, heq, -⟩
  exact hlayout.append_names_ne hpage isPageName_stylesheetName _ _ heq.symm

theorem not_brought_manifestPart_sheet :
    ¬ Brought (result.manifestPart cacheDir) (sheetPlace outDir) (.file bytes) := by
  rw [brought_manifestPart_iff]
  rintro (⟨-, hentry⟩ | ⟨heq, -⟩)
  · cases hentry
  · exact sheet_ne_manifest _ _ heq

/-- The writing gets as far as to write the stylesheet. -/
def ReachesSheet (tree : FileTree) (result : BuildResult) (outDir : Path) : Prop :=
  result.hasStylesheet = true ∧
    (tree.applyAll (result.pagePart outDir ++ result.sheetPart outDir)).2 = .ok ()

/-- A stylesheet that has been written stays, also if the manifest cannot be written. -/
theorem ReachesSheet.entry? (hplain : tree.Plain) (hlayout : IsLayout result.pages)
    (hout : outDir.IsPlain) (hcache : cacheDir.IsPlain) (h : result.ReachesSheet tree outDir) :
    entry? (result.emit tree outDir cacheDir).1 (sheetPlace outDir)
      = some (.file result.nonCriticalCss.toUTF8) := by
  obtain ⟨hhas, hok⟩ := h
  have hsteps : ∀ step ∈ result.pagePart outDir ++ result.sheetPart outDir, step.IsPlain :=
    List.forall_mem_append.2
      ⟨isPlain_pagePart hlayout hout, isPlain_sheetPart result hout⟩
  have hrun : tree.applyAll (result.pagePart outDir ++ result.sheetPart outDir) = (_, .ok ()) :=
    Prod.ext rfl hok
  have hreached := hplain.changedBy_of_applyAll hsteps hrun
  rw [emit, steps_eq, ← List.append_assoc, applyAll_append_of_ok hrun,
    (hreached.plain.applyAll_changedBy (isPlain_manifestPart result hcache)).file_iff
      fun _ => not_brought_manifestPart_sheet]
  have hnames := names_join (p := outDir) isSegment_stylesheetName
  rw [sheetPart, if_pos hhas] at hsteps hrun ⊢
  rw [sheetPlace, ← hnames]
  exact hplain.entry?_applyAll_write hsteps hrun fun bytes => brought_nil

/-- A failed attempt to write the stylesheet changes nothing. -/
theorem applyAll_sheetPart_of_error {reached : FileTree} {e : FileError}
    (h : tree.applyAll (result.sheetPart outDir) = (reached, .error e)) : reached = tree := by
  rw [sheetPart] at h
  split at h
  · rcases tree.apply_write_cases (outDir.join Page.stylesheetName) result.nonCriticalCss with
      ⟨written, hwrite⟩ | ⟨e', hwrite⟩
    · rw [applyAll_cons_of_ok hwrite] at h
      cases h
    · rw [applyAll_cons_of_error hwrite] at h
      cases h
      rfl
  · cases h

/-- A build that does not get as far as to write a stylesheet leaves the one that was there. -/
theorem emit_file_iff_of_not_reachesSheet (hplain : tree.Plain) (hlayout : IsLayout result.pages)
    (hout : outDir.IsPlain) (hcache : cacheDir.IsPlain) (h : ¬ result.ReachesSheet tree outDir) :
    entry? (result.emit tree outDir cacheDir).1 (sheetPlace outDir) = some (.file bytes) ↔
      tree.entry? (sheetPlace outDir) = some (.file bytes) := by
  by_cases hhas : result.hasStylesheet = true
  · have hpages : entry? (tree.applyAll (result.pagePart outDir)).1 (sheetPlace outDir)
          = some (.file bytes) ↔ tree.entry? (sheetPlace outDir) = some (.file bytes) :=
      (hplain.applyAll_changedBy (isPlain_pagePart hlayout hout)).file_iff
        fun _ => not_brought_pagePart_sheet hlayout hout
    rw [← hpages, emit, steps_eq, ← List.append_assoc]
    -- The writing has ended with the pages or at the stylesheet, which leaves the tree alone.
    cases hfirst : tree.applyAll (result.pagePart outDir) with
    | mk reached outcome =>
        cases outcome with
        | error e =>
            rw [applyAll_append_of_error (applyAll_append_of_error hfirst)]
        | ok =>
            cases hsheet : reached.applyAll (result.sheetPart outDir) with
            | mk styled outcome =>
                have hboth : tree.applyAll (result.pagePart outDir ++ result.sheetPart outDir)
                    = (styled, outcome) := (applyAll_append_of_ok hfirst).trans hsheet
                cases outcome with
                | ok => exact absurd ⟨hhas, by rw [hboth]⟩ h
                | error e =>
                    obtain rfl := applyAll_sheetPart_of_error hsheet
                    rw [applyAll_append_of_error hboth]
  · refine (hplain.applyAll_changedBy (isPlain_steps hlayout hout hcache)).file_iff ?_
    intro other hbrought
    rcases (brought_file_iff hlayout hout).1 hbrought with
      ⟨page, hpage, heq, -⟩ | ⟨hhas', -⟩ | ⟨heq, -⟩
    · exact hlayout.append_names_ne hpage isPageName_stylesheetName _ _ heq.symm
    · exact hhas hhas'
    · exact sheet_ne_manifest _ _ heq

end BuildResult

namespace Build

variable {race : Race} {tree written : FileTree} {site : SiteContext} {css : String}
  {sheet : Option String} {outDir : Path}

/-! ## One build -/

/-- A build writes `css` as the stylesheet of the site. Whether it succeeds is another question. -/
def WritesSheet (race : Race) (tree : FileTree) (site : SiteContext) (css : String) : Prop :=
  ∃ checked, compile race tree site = .ok checked ∧ checked.result.pages ≠ [] ∧
    css = checked.result.nonCriticalCss ∧ checked.result.ReachesSheet tree site.paths.outDir

theorem plain_run (hplain : tree.Plain) (hout : site.paths.outDir.IsPlain)
    (hcache : site.paths.cacheDir.IsPlain) : (run race tree site).1.Plain := by
  cases hcompile : compile race tree site with
  | error error =>
      rw [run_eq_of_error hcompile]
      exact hplain
  | ok checked =>
      by_cases hpages : checked.result.pages = []
      · rw [run_eq_of_no_page hcompile hpages]
        exact hplain
      · rw [fst_run_of_pages hcompile hpages]
        exact (hplain.applyAll_changedBy (BuildResult.isPlain_steps
          (isLayout_of_compile hplain hcompile) hout hcache)).plain

theorem WritesSheet.entry? (hplain : tree.Plain) (hout : site.paths.outDir.IsPlain)
    (hcache : site.paths.cacheDir.IsPlain) (h : WritesSheet race tree site css) :
    entry? (run race tree site).1 (sheetPlace site.paths.outDir) = some (.file css.toUTF8) := by
  obtain ⟨checked, hcompile, hpages, rfl, hreaches⟩ := h
  rw [fst_run_of_pages hcompile hpages]
  exact hreaches.entry? hplain (isLayout_of_compile hplain hcompile) hout hcache

/-- A build that writes no stylesheet neither changes nor removes the one that is there. -/
theorem run_file_iff_of_not_writesSheet (hplain : tree.Plain) (hout : site.paths.outDir.IsPlain)
    (hcache : site.paths.cacheDir.IsPlain) (h : ∀ css, ¬ WritesSheet race tree site css)
    {bytes : ByteArray} :
    entry? (run race tree site).1 (sheetPlace site.paths.outDir) = some (.file bytes) ↔
      tree.entry? (sheetPlace site.paths.outDir) = some (.file bytes) := by
  cases hcompile : compile race tree site with
  | error error => rw [run_eq_of_error hcompile]
  | ok checked =>
      by_cases hpages : checked.result.pages = []
      · rw [run_eq_of_no_page hcompile hpages]
      · rw [fst_run_of_pages hcompile hpages]
        exact BuildResult.emit_file_iff_of_not_reachesSheet hplain
          (isLayout_of_compile hplain hcompile) hout hcache
          fun hreaches => h _ ⟨checked, hcompile, hpages, rfl, hreaches⟩

/-- Of the builds that succeed, those with CSS to link to write the stylesheet. -/
theorem writesSheet_iff_of_run {result : BuildResult} {events : List Event}
    (hrun : run race tree site = (written, .ok (result, events))) (hpages : result.pages ≠ []) :
    WritesSheet race tree site css ↔ result.hasStylesheet = true ∧ css = result.nonCriticalCss := by
  obtain ⟨checked, hcompile, rfl⟩ := exists_compile_of_run hrun
  constructor
  · rintro ⟨found, hfound, -, rfl, hhas, -⟩
    obtain rfl := Except.ok.inj (hfound.symm.trans hcompile)
    exact ⟨hhas, rfl⟩
  · rintro ⟨hhas, rfl⟩
    refine ⟨checked, hcompile, hpages, rfl, hhas, ?_⟩
    obtain ⟨files, hcompleted⟩ := (run_eq_ok hrun).resolve_left hpages
    have hemitted := hcompleted.emitted
    rw [BuildResult.emit, BuildResult.steps_eq, ← List.append_assoc] at hemitted
    cases hfirst : tree.applyAll (checked.result.pagePart site.paths.outDir
        ++ checked.result.sheetPart site.paths.outDir) with
    | mk reached outcome =>
        cases outcome with
        | ok => rfl
        | error e =>
            rw [applyAll_append_of_error hfirst] at hemitted
            cases hemitted

/-! ## A history of builds -/

/-- The trees that edits and builds lead to, each with the stylesheet that was written last. An edit
may change anything but the stylesheet in the output directory, and no two builds need to have the
same settings or libraries. -/
inductive History (outDir : Path) : FileTree → Option String → Prop where
  | start {tree : FileTree} (hplain : tree.Plain)
      (hnone : ∀ bytes, tree.entry? (sheetPlace outDir) ≠ some (.file bytes)) :
      History outDir tree none
  | edit {tree edited : FileTree} {sheet : Option String} (h : History outDir tree sheet)
      (hplain : edited.Plain)
      (hsame : edited.entry? (sheetPlace outDir) = tree.entry? (sheetPlace outDir)) :
      History outDir edited sheet
  | writes {race : Race} {tree : FileTree} {sheet : Option String} {site : SiteContext}
      {css : String}
      (h : History outDir tree sheet) (hsite : site.paths.outDir = outDir)
      (hcache : site.paths.cacheDir.IsPlain) (hwrites : WritesSheet race tree site css) :
      History outDir (run race tree site).1 (some css)
  | leaves {race : Race} {tree : FileTree} {sheet : Option String} {site : SiteContext}
      (h : History outDir tree sheet) (hsite : site.paths.outDir = outDir)
      (hcache : site.paths.cacheDir.IsPlain) (hleaves : ∀ css, ¬ WritesSheet race tree site css) :
      History outDir (run race tree site).1 sheet

/-- The stylesheet on disk is the one that was written last. -/
theorem History.sheet_iff (hout : outDir.IsPlain) (h : History outDir tree sheet) :
    tree.Plain ∧ ∀ bytes, tree.entry? (sheetPlace outDir) = some (.file bytes) ↔
      ∃ css, sheet = some css ∧ bytes = css.toUTF8 := by
  induction h with
  | start hplain hnone =>
      exact ⟨hplain, fun bytes => iff_of_false (hnone bytes) nofun⟩
  | edit h hplain hsame ih =>
      rw [hsame]
      exact ⟨hplain, ih.2⟩
  | writes h hsite hcache hwrites ih =>
      subst hsite
      refine ⟨plain_run ih.1 hout hcache, fun bytes => ?_⟩
      rw [hwrites.entry? ih.1 hout hcache]
      constructor
      · intro heq
        exact ⟨_, rfl, (Entry.file.inj (Option.some.inj heq)).symm⟩
      · rintro ⟨_, heq, rfl⟩
        rw [Option.some.inj heq]
  | leaves h hsite hcache hleaves ih =>
      subst hsite
      refine ⟨plain_run ih.1 hout hcache, fun bytes => ?_⟩
      rw [run_file_iff_of_not_writesSheet ih.1 hout hcache hleaves, ih.2]

/-- Taking away files elsewhere is an edit. -/
theorem History.erase (h : History outDir tree sheet) (hout : outDir.IsPlain) (loc : Location)
    (hloc : ¬ loc <+: sheetPlace outDir) : History outDir (tree.erase loc) sheet :=
  .edit h ((h.sheet_iff hout).1.erase loc) (entry?_erase hloc)

/-- **After a build the stylesheet is that of the last build that had one.** In a history of edits
and builds, each build that succeeds with a page leaves its own CSS in the stylesheet if there is
any; otherwise the stylesheet of the builds before it stays, if they have written one. -/
theorem sheet_of_run (outDir : Path) (race : Race) (tree written : FileTree) (sheet : Option String)
    (site : SiteContext) (result : BuildResult) (events : List Event) (hout : outDir.IsPlain)
    (hhistory : History outDir tree sheet) (hsite : site.paths.outDir = outDir)
    (hcache : site.paths.cacheDir.IsPlain)
    (hrun : run race tree site = (written, .ok (result, events))) (hpages : result.pages ≠ []) :
    History outDir written (if result.hasStylesheet then some result.nonCriticalCss else sheet) ∧
    ∀ bytes, written.find? (outDir.join Page.stylesheetName) = some (.file bytes) ↔
      ∃ css, (if result.hasStylesheet then some result.nonCriticalCss else sheet) = some css ∧
        bytes = css.toUTF8 := by
  have hwrites (css : String) : WritesSheet race tree site css ↔
      result.hasStylesheet = true ∧ css = result.nonCriticalCss :=
    writesSheet_iff_of_run hrun hpages
  have hnext : History outDir written
      (if result.hasStylesheet then some result.nonCriticalCss else sheet) := by
    have hfst : written = (run race tree site).1 := (congrArg Prod.fst hrun).symm
    rw [hfst]
    split
    · next hhas => exact .writes hhistory hsite hcache ((hwrites _).2 ⟨hhas, rfl⟩)
    · next hhas =>
        exact .leaves hhistory hsite hcache fun css hcss => hhas ((hwrites css).1 hcss).1
  refine ⟨hnext, ?_⟩
  obtain ⟨hplain, hsheet⟩ := hnext.sheet_iff hout
  have hnames := names_join (p := outDir) isSegment_stylesheetName
  have hpath := isPlain_join hout isSegment_stylesheetName (by decide)
  rw [hplain.find?_eq hpath (raw_ne_empty_of_names (by simp [hnames]))
    (endsWithSeparator_join isSegment_stylesheetName), hnames]
  exact hsheet

/-- A site with one page and one candidate. -/
def styledTree : FileTree where
  entries := [(["pages"], .directory), (["pages", "x.html"], .file "<p class=t>".toUTF8),
    (["candidates"], .directory), (["candidates", "utils"], .directory),
    (["candidates", "utils", "t"], .directory),
    (["candidates", "utils", "t", "non-critical.css"], .file ".t\x7bgap:0\x7d".toUTF8)]

def styledSite : SiteContext where
  libraries := .standIn
  paths := { srcRoot := ⟨""⟩, outDir := ⟨"dist"⟩, cacheDir := ⟨"cache"⟩, basePath := "" }
  settings := { SiteSettings.default with css := { CssSettings.default with minify := false } }

/-- The site has been built, and then its candidate was removed. -/
def strippedTree : FileTree :=
  (run .inOrder styledTree styledSite).1.erase ["candidates", "utils", "t"]

theorem run_styledTree : ∃ written result events,
    run .inOrder styledTree styledSite = (written, .ok (result, events)) ∧ result.pages ≠ [] ∧
      result.hasStylesheet = true := by
  have hresult : ((run .inOrder styledTree styledSite).2.map fun built =>
      (built.1.pages.isEmpty, built.1.hasStylesheet)) = .ok (false, true) := by
    decide +kernel
  obtain ⟨written, result, events, hrun, hfacts⟩ := exists_of_run
    (fun result => (result.pages.isEmpty, result.hasStylesheet)) hresult
  obtain ⟨hpages, hhas⟩ := Prod.mk.inj hfacts
  exact ⟨written, result, events, hrun, List.isEmpty_eq_false_iff.1 hpages, hhas⟩

theorem run_strippedTree : ∃ written result events,
    run .inOrder strippedTree styledSite = (written, .ok (result, events)) ∧ result.pages ≠ [] ∧
      result.hasStylesheet = false := by
  have hresult : ((run .inOrder strippedTree styledSite).2.map fun built =>
      (built.1.pages.isEmpty, built.1.hasStylesheet)) = .ok (false, false) := by
    decide +kernel
  obtain ⟨written, result, events, hrun, hfacts⟩ := exists_of_run
    (fun result => (result.pages.isEmpty, result.hasStylesheet)) hresult
  obtain ⟨hpages, hhas⟩ := Prod.mk.inj hfacts
  exact ⟨written, result, events, hrun, List.isEmpty_eq_false_iff.1 hpages, hhas⟩

/-- The second build has no CSS to link to, and the stylesheet of the first one is still there. -/
theorem sheet_of_run_strippedTree : ∃ written result events,
    run .inOrder strippedTree styledSite = (written, .ok (result, events)) ∧ result.pages ≠ [] ∧
      result.hasStylesheet = false ∧
      ∃ bytes, written.find? ⟨"dist/styles.css"⟩ = some (.file bytes) := by
  obtain ⟨first, styled, styledEvents, hfirst, hstyledPages, hstyled⟩ := run_styledTree
  obtain ⟨written, result, events, hrun, hpages, hhas⟩ := run_strippedTree
  have hbuilt : History ⟨"dist"⟩ (run .inOrder styledTree styledSite).1
      (some styled.nonCriticalCss) :=
    .writes (.start (by decide +kernel) nofun) rfl (by decide +kernel)
      ((writesSheet_iff_of_run hfirst hstyledPages).2 ⟨hstyled, rfl⟩)
  have hstripped : History ⟨"dist"⟩ strippedTree (some styled.nonCriticalCss) :=
    hbuilt.erase (by decide +kernel) ["candidates", "utils", "t"] (by decide +kernel)
  obtain ⟨-, hsheet⟩ := sheet_of_run ⟨"dist"⟩ .inOrder strippedTree written
    (some styled.nonCriticalCss)
    styledSite result events (by decide +kernel) hstripped rfl (by decide +kernel) hrun hpages
  refine ⟨written, result, events, hrun, hpages, hhas, styled.nonCriticalCss.toUTF8, ?_⟩
  exact (hsheet _).2 ⟨_, by rw [hhas]; rfl, rfl⟩

end Build

end SiteCompiler
