import SiteCompiler.Library.StandIn
import SiteCompiler.Proofs.Build.Layout
import Mathlib.Data.List.Dedup
set_option autoImplicit false

/-! # The output mirrors the pages

A successful build leaves in its output directory the pages that it has found, under the same paths
and with their own documents, and changes no other file than the manifest. What it writes is all
there at the end, and writing it again changes nothing (`run_mirrors`).

Two things can come in between. Pages whose paths look the same to a reader are written to one
place, where the last of them stays. And the empty path names no directory: what is written to it
goes where the build was started, over the files that are there (`run_overwrites`).
-/

namespace SiteCompiler

open FileTree SiteCompiler.Path

variable {tree written : FileTree} {outDir cacheDir : Path} {result : BuildResult}
  {page : BuiltPage} {pages : List BuiltPage}

/-! ## Pages of one path -/

theorem BuiltPage.relativePath_eq_of_names {other : BuiltPage} (h : other.names = page.names) :
    other.relativePath = page.relativePath := by
  have hpaths := congrArg (OsText.intercalate slash) h
  rw [BuiltPage.names, BuiltPage.names, intercalate_pieces, intercalate_pieces] at hpaths
  exact OsText.ofText_inj.1 hpaths

theorem readable_pieces (path : String) : PageFile.readable (pieces path) = path := by
  rw [PageFile.readable_eq, intercalate_pieces, OsText.text_ofText]

/-- The last of the pages that have its path. -/
def IsLast (pages : List BuiltPage) (page : BuiltPage) : Prop :=
  ∃ before after, pages = before ++ page :: after ∧
    ∀ other ∈ after, other.relativePath ≠ page.relativePath

theorem exists_isLast {path : String} (h : path ∈ pages.map BuiltPage.relativePath) :
    ∃ page, IsLast pages page ∧ page.relativePath = path := by
  induction pages with
  | nil => cases h
  | cons first pages ih =>
      by_cases hlater : path ∈ pages.map BuiltPage.relativePath
      · obtain ⟨page, ⟨before, after, rfl, hafter⟩, hpath⟩ := ih hlater
        exact ⟨page, ⟨first :: before, after, rfl, hafter⟩, hpath⟩
      · obtain rfl := (List.mem_cons.1 h).resolve_right hlater
        refine ⟨first, ⟨[], pages, rfl, fun other hother heq => hlater ?_⟩, rfl⟩
        exact List.mem_map.2 ⟨other, hother, heq⟩

theorem isLast_of_nodup (hnodup : (pages.map BuiltPage.relativePath).Nodup) (hpage : page ∈ pages) :
    IsLast pages page := by
  obtain ⟨before, after, rfl⟩ := List.append_of_mem hpage
  refine ⟨before, after, rfl, fun other hother heq => ?_⟩
  rw [List.map_append, List.map_cons] at hnodup
  refine (List.nodup_cons.1 (List.nodup_append.1 hnodup).2.1).1 ?_
  exact List.mem_map.2 ⟨other, hother, heq⟩

/-- Of two pages with one path the second is the last. -/
theorem IsLast.eq_second {first second : BuiltPage} (h : IsLast [first, second] page)
    (hsame : second.relativePath = first.relativePath) : page = second := by
  obtain ⟨before, after, hsplit, hafter⟩ := h
  rcases before with _ | ⟨_, _ | ⟨_, before⟩⟩
  · cases hsplit
    exact absurd hsame (hafter second (List.mem_singleton_self _))
  · cases hsplit
    rfl
  · simp at hsplit

/-! ## After the writing -/

namespace BuildResult

/-- After a site has been written, what was to be written is there. -/
theorem emit_eq_ok (hplain : tree.Plain) (hlayout : IsLayout result.pages)
    (hout : outDir.IsPlain) (hcache : cacheDir.IsPlain)
    (hemit : result.emit tree outDir cacheDir = (written, .ok ())) :
    ChangedBy (Brought (result.steps outDir cacheDir)) tree written ∧
      written.Holds (Brought (result.steps outDir cacheDir)) := by
  have hsteps := isPlain_steps hlayout hout hcache
  exact ⟨hplain.changedBy_of_applyAll hsteps hemit, hplain.holds_applyAll hsteps hemit⟩

/-- Of the pages with one path the last one is there in the end. -/
theorem entry?_emit (hplain : tree.Plain) (hlayout : IsLayout result.pages)
    (hout : outDir.IsPlain) (hcache : cacheDir.IsPlain)
    (hemit : result.emit tree outDir cacheDir = (written, .ok ()))
    (hlast : IsLast result.pages page) :
    written.entry? (outDir.names ++ page.names) = some (.file page.html.toUTF8) := by
  obtain ⟨before, after, hpages, hafter⟩ := hlast
  have hpage : page ∈ result.pages := by simp [hpages]
  obtain ⟨above, -, -, hpageSteps⟩ := exists_pageSteps hlayout hpage hout
  have hnames : (outputPath outDir page.relativePath).names = outDir.names ++ page.names :=
    names_outputPath (hlayout.isSegment hpage)
  have hrest : IsLayout after := hlayout.mono fun other hother => by
    rw [hpages]
    exact List.mem_append_right _ (List.mem_cons_of_mem page hother)
  have hsteps : result.steps outDir cacheDir
      = (.makeDirectories outDir :: before.flatMap (pageSteps outDir) ++ [.makeDirectories above])
        ++ .write (outputPath outDir page.relativePath) page.html
          :: (after.flatMap (pageSteps outDir)
            ++ (result.sheetPart outDir ++ result.manifestPart cacheDir)) := by
    rw [steps_eq, pagePart, hpages, List.flatMap_append, List.flatMap_cons, hpageSteps]
    simp
  have hplainSteps := isPlain_steps hlayout hout hcache
  rw [emit, hsteps] at hemit
  rw [hsteps] at hplainSteps
  rw [← hnames]
  refine hplain.entry?_applyAll_write hplainSteps hemit fun bytes hbrought => ?_
  rw [hnames] at hbrought
  rcases brought_append.1 hbrought with hbrought | hbrought
  · obtain ⟨other, hother, heq, -⟩ := (brought_pageSteps_file_iff hrest hout).1 hbrought
    exact hafter other hother
      (BuiltPage.relativePath_eq_of_names (List.append_cancel_left heq).symm)
  · rcases brought_append.1 hbrought with hbrought | hbrought
    · obtain ⟨-, heq, -⟩ := brought_sheetPart_iff.1 hbrought
      exact hlayout.append_names_ne hpage isPageName_stylesheetName _ _ heq
    · rcases brought_manifestPart_iff.1 hbrought with ⟨-, hentry⟩ | ⟨heq, -⟩
      · cases hentry
      · exact hlayout.append_names_ne hpage isPageName_manifest _ _ heq

/-- Where a page is written, its path leads. -/
theorem find?_outputPath (hplain : written.Plain) (hlayout : IsLayout result.pages)
    (hout : outDir.IsPlain) (hpage : page ∈ result.pages) :
    written.find? (outputPath outDir page.relativePath)
      = written.entry? (outDir.names ++ page.names) := by
  have hsegments := hlayout.isSegment hpage
  have hnames : (outputPath outDir page.relativePath).names = outDir.names ++ page.names :=
    names_outputPath hsegments
  have hraw : (outputPath outDir page.relativePath).raw ≠ "" := raw_ne_empty_of_names fun hnil =>
    page.names_ne_nil (List.append_eq_nil_iff.1 (hnames.symm.trans hnil)).2
  rw [hplain.find?_eq (isPlain_outputPath hlayout hpage hout) hraw
    (endsWithSeparator_joinAll hsegments page.names_ne_nil), hnames]

end BuildResult

namespace Build

variable {site : SiteContext} {files : List PageFile}

/-! ## The pages in the output directory -/

/-- In an output directory that is new, names lead to a page exactly if a page of the build has
them. -/
theorem leadsToPage_written_iff (hplain : tree.Plain) (hlayout : IsLayout result.pages)
    (hout : outDir.IsPlain) (hcache : cacheDir.IsPlain)
    (hfree : tree.entry? outDir.names = none)
    (hemit : result.emit tree outDir cacheDir = (written, .ok ())) (names : List OsText) :
    PageFile.LeadsToPage written outDir.names names ↔
      ∃ page ∈ result.pages, page.names = names := by
  obtain ⟨hchanged, hholds⟩ := BuildResult.emit_eq_ok hplain hlayout hout hcache hemit
  constructor
  · rintro ⟨⟨bytes, hentry⟩, hisPage⟩
    rcases hchanged.origin _ _ hentry with hbefore | hbrought
    · rw [hplain.entry?_append_of_none hfree] at hbefore
      cases hbefore
    -- The stylesheet and the manifest do not have the name of a page.
    rcases (BuildResult.brought_file_iff hlayout hout).1 hbrought with
      ⟨page, hpage, heq, -⟩ | ⟨-, heq, -⟩ | ⟨heq, -⟩
    · exact ⟨page, hpage, (List.append_cancel_left heq).symm⟩
    · exact absurd heq (append_ne_of_isPageName hisPage isPageName_stylesheetName _ _)
    · exact absurd heq (append_ne_of_isPageName hisPage isPageName_manifest _ _)
  · rintro ⟨page, hpage, rfl⟩
    exact ⟨hholds.file hchanged.plain (BuildResult.brought_page hlayout hout hpage),
      hlayout.isPage page hpage⟩

/-- A reader can tell the pages in the output directory apart. -/
theorem legible_written (hplain : tree.Plain) (hout : site.paths.outDir.IsPlain)
    (hcache : site.paths.cacheDir.IsPlain) (hfree : tree.entry? site.paths.outDir.names = none)
    (h : Completed tree site files written result) :
    PageFile.Legible (PageFile.LeadsToPage written site.paths.outDir.names) := by
  have hlayout := h.isLayout hplain
  intro names hnames others hothers heq
  rw [leadsToPage_written_iff hplain hlayout hout hcache hfree h.emitted] at hnames hothers
  obtain ⟨page, -, rfl⟩ := hnames
  obtain ⟨other, -, rfl⟩ := hothers
  rw [BuiltPage.names, BuiltPage.names, readable_pieces, readable_pieces] at heq
  rw [BuiltPage.names, BuiltPage.names, heq]

/-- The names of the pages in the output directory, in their order. -/
theorem pagesBelow_written (hplain : tree.Plain) (hout : site.paths.outDir.IsPlain)
    (hcache : site.paths.cacheDir.IsPlain) (hfree : tree.entry? site.paths.outDir.names = none)
    (h : Completed tree site files written result) :
    PageFile.PagesBelow written site.paths.outDir.names
      ((files.map PageFile.relativePath).dedup.map fun path : String => pieces path) := by
  have hlayout := h.isLayout hplain
  have hpaths := map_relativePath h.built
  have hback : Function.LeftInverse PageFile.readable fun path : String => pieces path :=
    readable_pieces
  constructor
  · exact (List.nodup_dedup _).map hback.injective
  · intro names
    rw [leadsToPage_written_iff hplain hlayout hout hcache hfree h.emitted, ← hpaths, List.mem_map]
    simp only [List.mem_dedup, List.mem_map, exists_exists_and_eq_and]
    rfl
  · rw [List.map_map, hback.comp_eq_id, List.map_id]
    obtain ⟨here, found, -, hfound, rfl⟩ := PageFile.exists_of_scan hplain h.scanned
    refine List.Pairwise.sublist (List.dedup_sublist _) ?_
    rw [List.map_map]
    exact hfound.sorted

/-- Where the page of this path stands in a directory. -/
def pageAt (dir : Path) (path : String) : PageFile := PageFile.atNames dir (pieces path)

/-- The pages are found again in the output directory, each path once. -/
theorem Completed.scan_written (hplain : tree.Plain) (hout : site.paths.outDir.IsPlain)
    (hcache : site.paths.cacheDir.IsPlain) (hne : site.paths.outDir.raw ≠ "")
    (hfree : tree.entry? site.paths.outDir.names = none)
    (h : Completed tree site files written result) : PageFile.scan written site.paths.outDir
      = .ok ((files.map PageFile.relativePath).dedup.map (pageAt site.paths.outDir)) := by
  have hlayout := h.isLayout hplain
  obtain ⟨hchanged, hholds⟩ := BuildResult.emit_eq_ok hplain hlayout hout hcache h.emitted
  have hdirectory : written.entry? site.paths.outDir.names = some .directory :=
    hholds.directory ((BuildResult.brought_directory_iff hlayout hout).2 (Or.inl List.prefix_rfl))
  have hlocate : written.locate site.paths.outDir = .ok site.paths.outDir.names :=
    (hchanged.plain.locate_eq_ok_iff hout).2 ⟨hne, rfl, .directory, hdirectory, fun _ => rfl⟩
  obtain ⟨found, hfound, hscan⟩ := PageFile.scan_eq hchanged.plain hlocate hdirectory
  obtain rfl := hfound.unique (pagesBelow_written hplain hout hcache hfree h)
    (legible_written hplain hout hcache hfree h)
  rw [hscan, List.map_map]
  rfl

/-- The last page of a path stands in the output directory. -/
theorem Completed.find?_pageAt (hplain : tree.Plain) (hout : site.paths.outDir.IsPlain)
    (hcache : site.paths.cacheDir.IsPlain) (h : Completed tree site files written result)
    (hlast : IsLast result.pages page) :
    written.find? (pageAt site.paths.outDir page.relativePath).path
      = some (.file page.html.toUTF8) := by
  have hlayout := h.isLayout hplain
  obtain ⟨hchanged, -⟩ := BuildResult.emit_eq_ok hplain hlayout hout hcache h.emitted
  have hpage : page ∈ result.pages := by
    obtain ⟨before, after, hpages, -⟩ := hlast
    simp [hpages]
  show written.find? (BuildResult.outputPath site.paths.outDir page.relativePath) = _
  rw [BuildResult.find?_outputPath hchanged.plain hlayout hout hpage]
  exact BuildResult.entry?_emit hplain hlayout hout hcache h.emitted hlast

/-- The output directory shows the pages of a build: each path once, with the document of the last
page that has it. -/
structure Mirrors (written : FileTree) (pages : List BuiltPage) (after : List PageFile) : Prop where
  paths : after.map PageFile.relativePath = (pages.map BuiltPage.relativePath).dedup
  documents : ∀ file ∈ after, ∃ page, IsLast pages page ∧
    page.relativePath = file.relativePath ∧
    written.find? file.path = some (.file page.html.toUTF8)
  /-- If no two pages have the same path, they are all there, in their order. -/
  all : (pages.map BuiltPage.relativePath).Nodup →
    List.Forall₂ (fun page file => file.relativePath = page.relativePath ∧
      written.find? file.path = some (.file page.html.toUTF8)) pages after

theorem Completed.mirrors (hplain : tree.Plain) (hout : site.paths.outDir.IsPlain)
    (hcache : site.paths.cacheDir.IsPlain) (h : Completed tree site files written result) :
    Mirrors written result.pages
      ((result.pages.map BuiltPage.relativePath).dedup.map (pageAt site.paths.outDir)) := by
  constructor
  · rw [List.map_map]
    conv_rhs => rw [← List.map_id (result.pages.map BuiltPage.relativePath).dedup]
    exact List.map_congr_left fun path _ => readable_pieces path
  · intro file hfile
    obtain ⟨path, hpath, rfl⟩ := List.mem_map.1 hfile
    obtain ⟨page, hlast, rfl⟩ := exists_isLast (List.mem_dedup.1 hpath)
    exact ⟨page, hlast, (readable_pieces page.relativePath).symm,
      h.find?_pageAt hplain hout hcache hlast⟩
  · intro hnodup
    rw [hnodup.dedup, List.map_map, List.forall₂_map_right_iff, List.forall₂_same]
    exact fun page hpage => ⟨readable_pieces page.relativePath,
      h.find?_pageAt hplain hout hcache (isLast_of_nodup hnodup hpage)⟩

/-- A build into a new directory changes no file but the manifest. -/
theorem Completed.file_unchanged (hplain : tree.Plain) (hout : site.paths.outDir.IsPlain)
    (hcache : site.paths.cacheDir.IsPlain) (hfree : tree.entry? site.paths.outDir.names = none)
    (h : Completed tree site files written result) {loc : Location} {bytes : ByteArray}
    (hentry : tree.entry? loc = some (.file bytes))
    (hother : loc ≠ (site.paths.cacheDir.join Manifest.fileName).names) :
    written.entry? loc = some (.file bytes) := by
  have hlayout := h.isLayout hplain
  obtain ⟨hchanged, -⟩ := BuildResult.emit_eq_ok hplain hlayout hout hcache h.emitted
  -- Nothing has stood below the output directory.
  have hnew (names : List OsText) : loc ≠ site.paths.outDir.names ++ names := by
    rintro rfl
    rw [hplain.entry?_append_of_none hfree] at hentry
    cases hentry
  refine hchanged.file hentry fun other hbrought => ?_
  rcases (BuildResult.brought_file_iff hlayout hout).1 hbrought with
    ⟨page, -, heq, -⟩ | ⟨-, heq, -⟩ | ⟨heq, -⟩
  · exact absurd heq (hnew _)
  · exact absurd heq (hnew _)
  · rw [names_join isSegment_manifest] at hother
    exact absurd heq hother

theorem Completed.emit_again (hplain : tree.Plain) (hout : site.paths.outDir.IsPlain)
    (hcache : site.paths.cacheDir.IsPlain) (h : Completed tree site files written result) :
    result.emit written site.paths.outDir site.paths.cacheDir = (written, .ok ()) :=
  hplain.applyAll_again (BuildResult.isPlain_steps (h.isLayout hplain) hout hcache) h.emitted

/-- Where a build succeeds, no file stands in the place of its output directory. -/
theorem Completed.outDir_free (hplain : tree.Plain) (hout : site.paths.outDir.IsPlain)
    (hcache : site.paths.cacheDir.IsPlain) (hne : site.paths.outDir.raw ≠ "")
    (hnew : tree.pathExists site.paths.outDir = false)
    (h : Completed tree site files written result) :
    tree.entry? site.paths.outDir.names = none := by
  have hlayout := h.isLayout hplain
  obtain ⟨hchanged, hholds⟩ := BuildResult.emit_eq_ok hplain hlayout hout hcache h.emitted
  rcases hplain.cases site.paths.outDir.names with hnone | hdirectory | ⟨bytes, hfile⟩
  · exact hnone
  · rw [hplain.pathExists_of_directory hout hne hdirectory] at hnew
    cases hnew
  · obtain ⟨now, hnow, hkind⟩ := hchanged.stays _ _ hfile
    rw [hholds.directory ((BuildResult.brought_directory_iff hlayout hout).2
      (Or.inl List.prefix_rfl))] at hnow
    cases hkind.1 (Option.some.inj hnow).symm

/-! ## The whole build -/

/-- A build that is started in a directory is not given the empty path to write to. -/
theorem outDir_ne_empty {cwd : Path} {choice : BuildChoice} {paths : BuildPaths}
    (hcwd : cwd.raw ≠ "") (h : BuildPaths.resolve tree cwd choice = .ok paths) :
    paths.outDir.raw ≠ "" := by
  unfold BuildPaths.resolve at h
  simp only at h
  split at h
  · cases h
    exact raw_join_ne_empty hcwd _
  · cases h

/-- **The build mirrors the pages.** A build writes to a directory that did not exist. If it
succeeds with a page, and the path of the directory is not the empty one, then the pages that were
found below the pages directory are found below the output directory: each path once, with the
document of the last page that has it, so with each page's own if no two pages have the same path, as
it is if all their names are texts. No file that was there before has changed, the manifest of an
earlier build apart. Whatever the paths are, writing the site once more changes nothing. A build that
finds no page, or fails before it writes, leaves the tree as it was. -/
theorem run_mirrors (race : Race) (tree written : FileTree) (site : SiteContext)
    (outcome : Except BuildError (BuildResult × List Event)) (hplain : tree.Plain)
    (hout : site.paths.outDir.IsPlain) (hcache : site.paths.cacheDir.IsPlain)
    (hnew : tree.pathExists site.paths.outDir = false)
    (hrun : run race tree site = (written, outcome)) :
    (∀ result events, outcome = .ok (result, events) → result.pages ≠ [] →
      (site.paths.outDir.raw ≠ "" →
        (∃ before after, PageFile.scan tree site.pagesDir = .ok before ∧
          PageFile.scan written site.paths.outDir = .ok after ∧
          result.pages.map BuiltPage.relativePath = before.map PageFile.relativePath ∧
          Mirrors written result.pages after) ∧
        (∀ loc bytes, tree.entry? loc = some (.file bytes) →
          loc ≠ (site.paths.cacheDir.join Manifest.fileName).names →
          written.entry? loc = some (.file bytes))) ∧
      (PageFile.AllText tree site.pagesDir → (result.pages.map BuiltPage.relativePath).Nodup) ∧
      result.emit written site.paths.outDir site.paths.cacheDir = (written, .ok ())) ∧
    (∀ result events, outcome = .ok (result, events) → result.pages = [] → written = tree) ∧
    (∀ error, compile race tree site = .error error → outcome = .error error ∧ written = tree) := by
  refine ⟨?_, ?_, ?_⟩
  · rintro result events rfl hpages
    obtain ⟨files, h⟩ := (run_eq_ok hrun).resolve_left hpages
    have hpaths := map_relativePath h.built
    refine ⟨fun hne => ?_, fun htext => ?_, h.emit_again hplain hout hcache⟩
    · have hfree := h.outDir_free hplain hout hcache hne hnew
      have hscan := h.scan_written hplain hout hcache hne hfree
      rw [← hpaths] at hscan
      refine ⟨⟨files, _, h.scanned, hscan, hpaths, h.mirrors hplain hout hcache⟩, ?_⟩
      intro loc bytes hentry hother
      exact h.file_unchanged hplain hout hcache hfree hentry hother
    · rw [hpaths]
      exact PageFile.nodup_of_allText hplain.toSound htext h.scanned
  · rintro result events rfl hempty
    obtain ⟨checked, hcompile, rfl⟩ := exists_compile_of_run hrun
    exact congrArg Prod.fst (hrun.symm.trans (run_eq_of_no_page hcompile hempty))
  · intro error herror
    obtain ⟨htree, houtcome⟩ := Prod.mk.inj ((run_eq_of_error herror).symm.trans hrun)
    exact ⟨houtcome.symm, htree.symm⟩

/-- A site with a page in a directory. -/
def shelfTree : FileTree where
  entries := [(["pages"], .directory), (["pages", "shelf"], .directory),
    (["pages", "shelf", "a.html"], .file "<p>a</p>".toUTF8)]

/-- The manifest goes to a directory inside the output directory, beside the page. -/
def shelfSite : SiteContext where
  libraries := .standIn
  paths := { srcRoot := ⟨""⟩, outDir := ⟨"dist"⟩, cacheDir := ⟨"dist/shelf"⟩, basePath := "" }
  settings := .default

theorem run_shelfTree : ∃ written result events,
    run .inOrder shelfTree shelfSite = (written, .ok (result, events)) ∧
      result.pages = [⟨"shelf/a.html", "<p>a</p>", 0, []⟩] := by
  have hresult : ((run .inOrder shelfTree shelfSite).2.map fun built => built.1.pages)
      = .ok [⟨"shelf/a.html", "<p>a</p>", 0, []⟩] := by
    decide +kernel
  exact exists_of_run BuildResult.pages hresult

theorem run_mirrors_shelfTree : ∃ written result events,
    run .inOrder shelfTree shelfSite = (written, .ok (result, events)) ∧
      (∃ before after, PageFile.scan shelfTree ⟨"pages"⟩ = .ok before ∧
        PageFile.scan written ⟨"dist"⟩ = .ok after ∧
        before.map PageFile.relativePath = ["shelf/a.html"] ∧
        after.map PageFile.relativePath = ["shelf/a.html"]) ∧
      written.entry? ["pages", "shelf", "a.html"] = some (.file "<p>a</p>".toUTF8) ∧
      result.emit written ⟨"dist"⟩ ⟨"dist/shelf"⟩ = (written, .ok ()) := by
  obtain ⟨written, result, events, hrun, hpages⟩ := run_shelfTree
  have hsome : result.pages ≠ [] := by
    rw [hpages]
    exact List.cons_ne_nil _ _
  obtain ⟨hmirrors, -, hagain⟩ :=
    (run_mirrors .inOrder shelfTree written shelfSite _ (by decide +kernel) (by decide +kernel)
      (by decide +kernel) (by decide +kernel) hrun).1 result events rfl hsome
  obtain ⟨⟨before, after, hbefore, hafter, hpaths, hmirror⟩, hunchanged⟩ := hmirrors (by decide)
  refine ⟨written, result, events, hrun, ⟨before, after, hbefore, hafter, ?_, ?_⟩, ?_, hagain⟩
  · rw [← hpaths, hpages]
    rfl
  · rw [hmirror.paths, hpages]
    rfl
  · exact hunchanged _ _ (by decide +kernel) (by decide +kernel)

/-- The site of pages whose paths look the same. -/
def clashingSite : SiteContext where
  libraries := .standIn
  paths := { srcRoot := ⟨""⟩, outDir := ⟨"dist"⟩, cacheDir := ⟨"cache"⟩, basePath := "" }
  settings := .default

theorem run_clashingSite : ∃ written result events,
    run .inOrder PageFile.clashingTree clashingSite = (written, .ok (result, events)) ∧
      result.pages
        = [⟨"\ufffd.html", "<p>x</p>", 0, []⟩, ⟨"\ufffd.html", "<p>y</p>", 0, []⟩] := by
  have hresult : ((run .inOrder PageFile.clashingTree clashingSite).2.map fun built =>
      built.1.pages)
      = .ok [⟨"\ufffd.html", "<p>x</p>", 0, []⟩, ⟨"\ufffd.html", "<p>y</p>", 0, []⟩] := by
    have hscan : PageFile.scan PageFile.clashingTree clashingSite.pagesDir
        = .ok [PageFile.bytePage 0xFE, PageFile.bytePage 0xFF] := PageFile.scan_bytePages
    unfold run compile compileWith
    rw [hscan]
    decide +kernel
  exact exists_of_run BuildResult.pages hresult

/-- A site beside which there is a file already. -/
def besideTree : FileTree where
  entries := [(["pages"], .directory), (["pages", "x.html"], .file "<p>x</p>".toUTF8),
    (["x.html"], .file "<p>old</p>".toUTF8)]

/-- The site is written to the empty path. -/
def besideSite : SiteContext where
  libraries := .standIn
  paths := { srcRoot := ⟨""⟩, outDir := ⟨""⟩, cacheDir := ⟨"cache"⟩, basePath := "" }
  settings := .default

theorem run_besideTree : ∃ written result events,
    run .inOrder besideTree besideSite = (written, .ok (result, events)) ∧
      result.pages = [⟨"x.html", "<p>x</p>", 0, []⟩] := by
  have hresult : ((run .inOrder besideTree besideSite).2.map fun built => built.1.pages)
      = .ok [⟨"x.html", "<p>x</p>", 0, []⟩] := by
    decide +kernel
  exact exists_of_run BuildResult.pages hresult

/-- Of two pages that look the same one is lost, and what is written to the empty path takes the
place of a file that was there. -/
theorem run_overwrites :
    (PageFile.clashingTree.Plain ∧ clashingSite.paths.outDir.IsPlain ∧
      clashingSite.paths.cacheDir.IsPlain ∧
      PageFile.clashingTree.pathExists clashingSite.paths.outDir = false ∧
      ∃ written result events before after,
        run .inOrder PageFile.clashingTree clashingSite = (written, .ok (result, events)) ∧
        PageFile.scan PageFile.clashingTree clashingSite.pagesDir = .ok before ∧
        PageFile.scan written clashingSite.paths.outDir = .ok after ∧
        before.map PageFile.relativePath = ["\ufffd.html", "\ufffd.html"] ∧
        after.map PageFile.relativePath = ["\ufffd.html"] ∧
        result.pages.map BuiltPage.html = ["<p>x</p>", "<p>y</p>"] ∧
        ∀ file ∈ after, written.find? file.path = some (.file "<p>y</p>".toUTF8)) ∧
    (besideTree.Plain ∧ besideSite.paths.outDir.IsPlain ∧ besideSite.paths.cacheDir.IsPlain ∧
      besideTree.pathExists besideSite.paths.outDir = false ∧
      ∃ written result events,
        run .inOrder besideTree besideSite = (written, .ok (result, events)) ∧
        result.pages ≠ [] ∧ besideTree.entry? ["x.html"] = some (.file "<p>old</p>".toUTF8) ∧
        written.entry? ["x.html"] = some (.file "<p>x</p>".toUTF8)) := by
  refine ⟨⟨by decide +kernel, by decide +kernel, by decide +kernel, by decide +kernel, ?_⟩,
    by decide +kernel, by decide +kernel, by decide +kernel, by decide +kernel, ?_⟩
  · have hplain : PageFile.clashingTree.Plain := by decide +kernel
    obtain ⟨written, result, events, hrun, hpages⟩ := run_clashingSite
    obtain ⟨files, h⟩ := (run_eq_ok hrun).resolve_left (by simp [hpages])
    have hscan := h.scan_written hplain (by decide +kernel) (by decide +kernel) (by decide)
      (by decide +kernel)
    have hmirrors := h.mirrors hplain (by decide +kernel) (by decide +kernel)
    have hpaths := map_relativePath h.built
    rw [← hpaths] at hscan
    refine ⟨written, result, events, files, _, hrun, h.scanned, hscan, ?_, ?_, ?_, ?_⟩
    · rw [← hpaths, hpages]
      rfl
    · rw [hmirrors.paths, hpages]
      decide
    · rw [hpages]
      rfl
    · intro file hfile
      obtain ⟨page, hpage, -, hfind⟩ := hmirrors.documents file hfile
      rw [hpages] at hpage
      rw [hfind, hpage.eq_second rfl]
  · obtain ⟨written, result, events, hrun, hpages⟩ := run_besideTree
    have hwritten : FileTree.entry? (run .inOrder besideTree besideSite).1 ["x.html"]
        = some (.file "<p>x</p>".toUTF8) := by
      decide +kernel
    rw [hrun] at hwritten
    refine ⟨written, result, events, hrun, by simp [hpages], by decide +kernel, hwritten⟩

end Build

end SiteCompiler
