import SiteCompiler.Proofs.Build.Run
import SiteCompiler.Proofs.Build.WriteStep
import SiteCompiler.Proofs.Page.Discovery
set_option autoImplicit false

/-! # Where the parts of a site are written

A page is written below the output directory at the names of its own path, the stylesheet beside the
pages and the manifest into the cache directory (`brought_file_iff`), with the directories that they
need (`brought_directory_iff`).

The path of a page is what a reader sees of the names that lead to it. It leads down only, and its
last name is that of a page (`IsLayout`, `isLayout_of_built`). But names that are not UTF-8 may
become longer in the reading, and two of them may become one.
-/

namespace SiteCompiler

open FileTree SiteCompiler.Path

/-- The names of a page's path. -/
def BuiltPage.names (page : BuiltPage) : List OsText := pieces page.relativePath

/-- A name that leads one level down. -/
def IsStep (name : OsText) : Prop := IsSegment name ∧ name ≠ "." ∧ name ≠ ".."

/-- Pages that can be written to a directory, as far as the form of their names goes. -/
structure IsLayout (pages : List BuiltPage) : Prop where
  named : ∀ page ∈ pages, ∀ name ∈ page.names, IsStep name
  isPage : ∀ page ∈ pages, PageFile.isPageName (page.names.getLast?.getD "") = true

theorem BuiltPage.names_ne_nil (page : BuiltPage) : page.names ≠ [] := by
  intro hnil
  exact List.splitOn_ne_nil separator _ (List.map_eq_nil_iff.1 hnil)

theorem BuiltPage.exists_names_eq (page : BuiltPage) :
    ∃ above last, page.names = above ++ [last] :=
  (List.eq_nil_or_concat' page.names).resolve_left page.names_ne_nil

/-- Names that end in that of a page do not lead to a file that is named otherwise. -/
theorem append_ne_of_isPageName {names : List OsText}
    (hpage : PageFile.isPageName (names.getLast?.getD "") = true) {name : OsText}
    (hname : PageFile.isPageName name = false) (here dir : Location) :
    here ++ names ≠ dir ++ [name] := by
  intro heq
  rcases List.eq_nil_or_concat' names with rfl | ⟨above, last, rfl⟩
  · revert hpage
    decide
  · rw [List.getLast?_concat, Option.getD_some] at hpage
    rw [← List.append_assoc] at heq
    rw [List.singleton_inj.1 (List.append_inj' heq rfl).2, hname] at hpage
    cases hpage

namespace IsLayout

variable {pages : List BuiltPage} {page : BuiltPage}

theorem isSegment (h : IsLayout pages) (hpage : page ∈ pages) :
    ∀ name ∈ page.names, IsSegment name := fun name hname => (h.named page hpage name hname).1

theorem goDown (h : IsLayout pages) (hpage : page ∈ pages) : GoDown page.names := fun name hname =>
  (h.named page hpage name hname).2

theorem mono (h : IsLayout pages) {others : List BuiltPage} (hsubset : others ⊆ pages) :
    IsLayout others :=
  ⟨fun page hpage => h.named page (hsubset hpage), fun page hpage => h.isPage page (hsubset hpage)⟩

/-- No page stands where a file stands that is not named as one. -/
theorem append_names_ne (h : IsLayout pages) (hpage : page ∈ pages) {name : OsText}
    (hname : PageFile.isPageName name = false) (here dir : Location) :
    here ++ page.names ≠ dir ++ [name] :=
  append_ne_of_isPageName (h.isPage page hpage) hname here dir

end IsLayout

theorem isPageName_stylesheetName : PageFile.isPageName Page.stylesheetName = false := by decide

theorem isPageName_manifest : PageFile.isPageName Manifest.fileName = false := by decide

theorem isName_stylesheetName : IsName Page.stylesheetName := by decide

theorem isName_manifest : IsName Manifest.fileName := by decide

theorem isSegment_stylesheetName : IsSegment Page.stylesheetName := isName_stylesheetName.1

theorem isSegment_manifest : IsSegment Manifest.fileName := isName_manifest.1

/-! ## The steps of a build -/

namespace BuildResult

variable {outDir cacheDir : Path} {pages : List BuiltPage} {page : BuiltPage}
  {result : BuildResult} {loc : Location}

theorem names_outputPath (h : ∀ name ∈ page.names, IsSegment name) :
    (outputPath outDir page.relativePath).names = outDir.names ++ page.names := names_joinAll h

theorem isPlain_outputPath (hlayout : IsLayout pages) (hpage : page ∈ pages)
    (hout : outDir.IsPlain) : (outputPath outDir page.relativePath).IsPlain :=
  isPlain_joinAll hout fun name hname =>
    ⟨hlayout.isSegment hpage name hname, hlayout.goDown hpage name hname⟩

/-- A page is written in two steps: the directories above it, and its file. -/
theorem exists_pageSteps (hlayout : IsLayout pages) (hpage : page ∈ pages)
    (hout : outDir.IsPlain) : ∃ above : Path, above.IsPlain ∧
      above.names = outDir.names ++ page.names.dropLast ∧
      pageSteps outDir page
        = [.makeDirectories above, .write (outputPath outDir page.relativePath) page.html] := by
  have hplain := isPlain_outputPath hlayout hpage hout
  have hnames : (outputPath outDir page.relativePath).names = outDir.names ++ page.names :=
    names_outputPath (hlayout.isSegment hpage)
  cases habove : (outputPath outDir page.relativePath).parent? with
  | none =>
      rw [parent?_eq_none_iff hplain, hnames, List.append_eq_nil_iff] at habove
      exact absurd habove.2 page.names_ne_nil
  | some above =>
      refine ⟨above, isPlain_of_parent? hplain habove, ?_, ?_⟩
      · rw [(names_of_parent? hplain habove).1, hnames,
          List.dropLast_append_of_ne_nil page.names_ne_nil]
      · simp only [pageSteps, habove]
        rfl

/-- The steps up to the last page. -/
def pagePart (result : BuildResult) (outDir : Path) : List WriteStep :=
  .makeDirectories outDir :: result.pages.flatMap (pageSteps outDir)

/-- The step that writes the stylesheet, if there is one. -/
def sheetPart (result : BuildResult) (outDir : Path) : List WriteStep :=
  if result.hasStylesheet then [.write (outDir.join Page.stylesheetName) result.nonCriticalCss]
  else []

/-- The steps that write the manifest. -/
def manifestPart (result : BuildResult) (cacheDir : Path) : List WriteStep :=
  [.makeDirectories cacheDir, .write (cacheDir.join Manifest.fileName) (Manifest.text result)]

theorem steps_eq : result.steps outDir cacheDir
    = result.pagePart outDir ++ (result.sheetPart outDir ++ result.manifestPart cacheDir) := by
  rw [← List.append_assoc]
  rfl

theorem pageSteps_subset (hpage : page ∈ result.pages) :
    pageSteps outDir page ⊆ result.pagePart outDir := fun _ hstep =>
  List.mem_cons_of_mem _ (List.mem_flatMap.2 ⟨page, hpage, hstep⟩)

/-- The files that the steps of pages bring. -/
theorem brought_pageSteps_file_iff (hlayout : IsLayout pages) (hout : outDir.IsPlain)
    {bytes : ByteArray} : Brought (pages.flatMap (pageSteps outDir)) loc (.file bytes) ↔
      ∃ page ∈ pages, loc = outDir.names ++ page.names ∧ bytes = page.html.toUTF8 := by
  constructor
  · rintro ⟨step, hstep, hbrings⟩
    obtain ⟨page, hpage, hstep⟩ := List.mem_flatMap.1 hstep
    obtain ⟨above, -, -, hsteps⟩ := exists_pageSteps hlayout hpage hout
    obtain ⟨path, text, rfl, rfl, rfl⟩ := WriteStep.brings_file_iff.1 hbrings
    rw [hsteps] at hstep
    rcases List.mem_pair.1 hstep with heq | heq
    · cases heq
    · cases heq
      exact ⟨page, hpage, names_outputPath (hlayout.isSegment hpage), rfl⟩
  · rintro ⟨page, hpage, rfl, rfl⟩
    obtain ⟨above, -, -, hsteps⟩ := exists_pageSteps hlayout hpage hout
    refine ⟨.write (outputPath outDir page.relativePath) page.html,
      List.mem_flatMap.2 ⟨page, hpage, by simp [hsteps]⟩, ?_⟩
    exact ⟨(names_outputPath (hlayout.isSegment hpage)).symm, rfl⟩

/-- The files of the pages. -/
theorem brought_pagePart_file_iff (hlayout : IsLayout result.pages) (hout : outDir.IsPlain)
    {bytes : ByteArray} : Brought (result.pagePart outDir) loc (.file bytes) ↔
      ∃ page ∈ result.pages, loc = outDir.names ++ page.names ∧ bytes = page.html.toUTF8 := by
  rw [pagePart, brought_cons, or_iff_right fun h => absurd h.2 (by simp)]
  exact brought_pageSteps_file_iff hlayout hout

/-- The directories of the pages. -/
theorem brought_pagePart_directory_iff (hlayout : IsLayout result.pages) (hout : outDir.IsPlain) :
    Brought (result.pagePart outDir) loc .directory ↔ loc <+: outDir.names ∨
      ∃ page ∈ result.pages, loc <+: outDir.names ++ page.names.dropLast := by
  rw [pagePart, brought_cons]
  refine or_congr (and_iff_left rfl) ?_
  constructor
  · rintro ⟨step, hstep, hbrings⟩
    obtain ⟨page, hpage, hstep⟩ := List.mem_flatMap.1 hstep
    obtain ⟨above, -, hnames, hsteps⟩ := exists_pageSteps hlayout hpage hout
    obtain ⟨dir, rfl, hloc⟩ := WriteStep.brings_directory_iff.1 hbrings
    rw [hsteps] at hstep
    rcases List.mem_pair.1 hstep with heq | heq
    · cases heq
      rw [hnames] at hloc
      exact ⟨page, hpage, hloc⟩
    · cases heq
  · rintro ⟨page, hpage, hloc⟩
    obtain ⟨above, -, hnames, hsteps⟩ := exists_pageSteps hlayout hpage hout
    refine ⟨.makeDirectories above, List.mem_flatMap.2 ⟨page, hpage, by simp [hsteps]⟩, ?_⟩
    exact ⟨hnames ▸ hloc, rfl⟩

theorem brought_sheetPart_iff {entry : Entry} : Brought (result.sheetPart outDir) loc entry ↔
    result.hasStylesheet = true ∧ loc = outDir.names ++ [OsText.ofText Page.stylesheetName] ∧
      entry = .file result.nonCriticalCss.toUTF8 := by
  rw [sheetPart]
  split
  · next hhas =>
      rw [brought_cons, or_iff_left brought_nil, and_iff_right hhas]
      simp [WriteStep.Brings, names_join isSegment_stylesheetName]
  · next hhas => exact iff_of_false brought_nil fun h => hhas h.1

theorem brought_manifestPart_iff {entry : Entry} :
    Brought (result.manifestPart cacheDir) loc entry ↔
      (loc <+: cacheDir.names ∧ entry = .directory) ∨
      (loc = cacheDir.names ++ [OsText.ofText Manifest.fileName] ∧
        entry = .file (Manifest.text result).toUTF8) := by
  rw [manifestPart, brought_cons, brought_cons, or_iff_left brought_nil]
  simp [WriteStep.Brings, names_join isSegment_manifest]

/-- The files that writing a site brings. -/
theorem brought_file_iff (hlayout : IsLayout result.pages) (hout : outDir.IsPlain)
    {bytes : ByteArray} : Brought (result.steps outDir cacheDir) loc (.file bytes) ↔
      (∃ page ∈ result.pages, loc = outDir.names ++ page.names ∧ bytes = page.html.toUTF8) ∨
      (result.hasStylesheet = true ∧ loc = outDir.names ++ [OsText.ofText Page.stylesheetName] ∧
        bytes = result.nonCriticalCss.toUTF8) ∨
      (loc = cacheDir.names ++ [OsText.ofText Manifest.fileName] ∧
        bytes = (Manifest.text result).toUTF8) := by
  rw [steps_eq, brought_append, brought_append, brought_pagePart_file_iff hlayout hout,
    brought_sheetPart_iff, brought_manifestPart_iff]
  simp

theorem brought_page (hlayout : IsLayout result.pages) (hout : outDir.IsPlain)
    (hpage : page ∈ result.pages) : Brought (result.steps outDir cacheDir)
      (outDir.names ++ page.names) (.file page.html.toUTF8) :=
  (brought_file_iff hlayout hout).2 (Or.inl ⟨page, hpage, rfl, rfl⟩)

/-- The directories that writing a site brings. -/
theorem brought_directory_iff (hlayout : IsLayout result.pages) (hout : outDir.IsPlain) :
    Brought (result.steps outDir cacheDir) loc .directory ↔ loc <+: outDir.names ∨
      (∃ page ∈ result.pages, loc <+: outDir.names ++ page.names.dropLast) ∨
      loc <+: cacheDir.names := by
  rw [steps_eq, brought_append, brought_append, brought_pagePart_directory_iff hlayout hout,
    brought_sheetPart_iff, brought_manifestPart_iff]
  simp [or_assoc]

theorem isPlain_write {name text : String} (hdir : outDir.IsPlain) (hname : IsName name) :
    (WriteStep.write (outDir.join name) text).IsPlain :=
  ⟨isPlain_join hdir hname.1 ⟨hname.2.1, hname.2.2.1⟩, endsWithSeparator_join hname.1⟩

theorem isPlain_pagePart (hlayout : IsLayout result.pages) (hout : outDir.IsPlain) :
    ∀ step ∈ result.pagePart outDir, step.IsPlain := by
  intro step hstep
  rcases List.mem_cons.1 hstep with rfl | hstep
  · exact hout
  obtain ⟨page, hpage, hstep⟩ := List.mem_flatMap.1 hstep
  obtain ⟨above, habove, -, hsteps⟩ := exists_pageSteps hlayout hpage hout
  rw [hsteps] at hstep
  rcases List.mem_pair.1 hstep with rfl | rfl
  · exact habove
  · exact ⟨isPlain_outputPath hlayout hpage hout,
      endsWithSeparator_joinAll (hlayout.isSegment hpage) page.names_ne_nil⟩

theorem isPlain_sheetPart (result : BuildResult) (hout : outDir.IsPlain) :
    ∀ step ∈ result.sheetPart outDir, step.IsPlain := by
  intro step hstep
  rw [sheetPart] at hstep
  split at hstep
  · rw [List.mem_singleton.1 hstep]
    exact isPlain_write hout isName_stylesheetName
  · cases hstep

theorem isPlain_manifestPart (result : BuildResult) (hcache : cacheDir.IsPlain) :
    ∀ step ∈ result.manifestPart cacheDir, step.IsPlain := by
  intro step hstep
  rcases List.mem_pair.1 hstep with rfl | rfl
  · exact hcache
  · exact isPlain_write hcache isName_manifest

theorem isPlain_steps (hlayout : IsLayout result.pages) (hout : outDir.IsPlain)
    (hcache : cacheDir.IsPlain) : ∀ step ∈ result.steps outDir cacheDir, step.IsPlain := by
  intro step hstep
  rw [steps_eq] at hstep
  rcases List.mem_append.1 hstep with hstep | hstep
  · exact isPlain_pagePart hlayout hout step hstep
  · rcases List.mem_append.1 hstep with hstep | hstep
    · exact isPlain_sheetPart result hout step hstep
    · exact isPlain_manifestPart result hcache step hstep

theorem sheet_ne_manifest (here dir : Location) :
    here ++ [OsText.ofText Page.stylesheetName] ≠ dir ++ [OsText.ofText Manifest.fileName] := by
  intro heq
  have hlast := List.singleton_inj.1 (List.append_inj' heq rfl).2
  revert hlast
  decide

end BuildResult

/-! ## Names as a reader sees them -/

/-- The name that a reader writes down. -/
def reading (name : OsText) : OsText := name.text

theorem isStep_reading {name : OsText} (h : IsName name) : IsStep (reading name) := by
  refine ⟨isSegment_text h.1, fun hdot => h.2.1 ?_, fun hdots => h.2.2.1 ?_⟩
  · exact OsText.eq_ofText_of_text (by simp) (OsText.ofText_inj.1 hdot)
  · exact OsText.eq_ofText_of_text (by simp) (OsText.ofText_inj.1 hdots)

/-- The extension of a page is not lost in the reading. -/
theorem isPageName_reading {name : OsText} (h : PageFile.isPageName name = true) :
    PageFile.isPageName (reading name) = true := by
  obtain ⟨stem, hstem, rfl⟩ := PageFile.isPageName_iff.1 h
  refine PageFile.isPageName_iff.2 ⟨stem.text, ?_, ?_⟩
  · exact fun hempty => hstem (OsText.text_eq_empty_iff.1 (OsText.ofText_inj.1 hempty))
  · rw [reading, text_append_dot, OsText.text_ofText, OsText.ofText_append, OsText.ofText_append]

/-! ## The pages of a build -/

namespace Build

variable {race : Race} {tree : FileTree} {context : PageContext} {dir : Path}
  {files : List PageFile} {pages : List BuiltPage}

/-- The paths of built pages are those of their files. -/
theorem map_relativePath
    (hbuilt : List.Forall₂ (fun file built => page context file = .ok built) files pages) :
    pages.map BuiltPage.relativePath = files.map PageFile.relativePath := by
  have hpaths : List.Forall₂ (fun built file => built.relativePath = file.relativePath) pages
      files := by
    refine hbuilt.flip.imp fun built file hpage => ?_
    obtain ⟨expanded, critical, nonCritical, horigin⟩ := page_eq_ok_iff.1 hpage
    exact horigin.relativePath_eq
  rw [← List.forall₂_eq_eq_eq, List.forall₂_map_left_iff, List.forall₂_map_right_iff]
  exact hpaths

/-- The pages of a build are called as a reader sees names that lead to a page. -/
theorem exists_leadsToPage (hplain : tree.Plain) (hscan : PageFile.scan tree dir = .ok files)
    (hbuilt : List.Forall₂ (fun file built => page context file = .ok built) files pages) :
    ∃ here, (∀ names, PageFile.ReachesPage tree dir names ↔ PageFile.LeadsToPage tree here names) ∧
      ∀ page ∈ pages, ∃ names, PageFile.LeadsToPage tree here names ∧
        page.names = names.map reading := by
  obtain ⟨here, found, hreaches, hfound, rfl⟩ := PageFile.exists_of_scan hplain hscan
  refine ⟨here, hreaches, fun page hpage => ?_⟩
  have hmem := List.mem_map_of_mem (f := BuiltPage.relativePath) hpage
  rw [map_relativePath hbuilt, List.map_map] at hmem
  obtain ⟨names, hnames, hreadable⟩ := List.mem_map.1 hmem
  have hleads := (hfound.mem_iff names).1 hnames
  have hmake : PageFile.MakePath names :=
    ⟨hleads.ne_nil, fun name hname => (hleads.isName hplain.toSound name hname).1.2⟩
  refine ⟨names, hleads, ?_⟩
  rw [BuiltPage.names, ← hreadable]
  exact hmake.pieces_readable

/-- Pages that were found can be written as far as the form of their names goes. -/
theorem isLayout_of_built (hplain : tree.Plain) (hscan : PageFile.scan tree dir = .ok files)
    (hbuilt : List.Forall₂ (fun file built => page context file = .ok built) files pages) :
    IsLayout pages := by
  obtain ⟨here, -, hpages⟩ := exists_leadsToPage hplain hscan hbuilt
  constructor
  · intro page hpage name hname
    obtain ⟨names, hleads, hnames⟩ := hpages page hpage
    rw [hnames] at hname
    obtain ⟨original, horiginal, rfl⟩ := List.mem_map.1 hname
    exact isStep_reading (hleads.isName hplain.toSound original horiginal)
  · intro page hpage
    obtain ⟨names, hleads, hnames⟩ := hpages page hpage
    obtain ⟨above, last, rfl⟩ := (List.eq_nil_or_concat' names).resolve_left hleads.ne_nil
    have hlast := hleads.2
    rw [List.getLast?_concat, Option.getD_some] at hlast
    rw [hnames, List.map_append, List.map_singleton, List.getLast?_concat, Option.getD_some]
    exact isPageName_reading hlast

/-- The pages of a compiled site can be written as far as the form of their names goes. -/
theorem isLayout_of_compile {site : SiteContext} {checked : Checked} (hplain : tree.Plain)
    (h : compile race tree site = .ok checked) : IsLayout checked.result.pages := by
  obtain ⟨events, hcompiled⟩ := compile_eq_ok h
  rcases compileWith_eq_ok hcompiled with hnone | ⟨files, pageEvents, hscan, hpages⟩
  · rw [hnone]
    exact ⟨nofun, nofun⟩
  · obtain ⟨-, hbuilt, -⟩ := compilePages_eq_ok hpages
    exact isLayout_of_built hplain hscan hbuilt

theorem Completed.isLayout {site : SiteContext} {written : FileTree} {result : BuildResult}
    (hplain : tree.Plain) (h : Completed tree site files written result) : IsLayout result.pages :=
  isLayout_of_built hplain h.scanned h.built

end Build

end SiteCompiler
