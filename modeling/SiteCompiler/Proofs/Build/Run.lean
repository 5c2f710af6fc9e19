import SiteCompiler.Build.Site
import SiteCompiler.Proofs.Build.Race
import SiteCompiler.Proofs.Sequence
set_option autoImplicit false

/-! # What a successful build has done

A build runs through several steps that may fail. These lemmas say what its success means for each
of them: how a page has come about (`page_eq_ok_iff`), and what pages, stylesheet and files of a
site have to do with each other (`run_eq_ok`). A build that succeeds has had no race to decide, so
it would have compiled the same with any (`compile_of_compile`).
-/

namespace SiteCompiler.Build

/-- How a page has come about: its expanded document, its critical CSS, and the non-critical CSS
that decides about the link. -/
structure PageOrigin (context : PageContext) (file : PageFile) (page : BuiltPage)
    (expanded critical nonCritical : String) : Prop where
  expands : ∃ html, context.tree.readText file.path = .ok html ∧
    Template.compile context.tree context.templatesDir html = .ok expanded
  used_eq : page.usedCandidates
    = Candidate.used context.libraries.parseHtml context.registry expanded
  critical_eq : Stylesheet.generate context.libraries.minify
    (pageCss context.registry context.aboveTheFold page.usedCandidates).critical
    context.css.minify = .ok critical
  nonCritical_eq : Stylesheet.generate context.libraries.minify
    (pageCss context.registry context.aboveTheFold page.usedCandidates).nonCritical
    context.css.minify = .ok nonCritical
  relativePath_eq : page.relativePath = file.relativePath
  html_eq : page.html = Page.replacePlaceholders expanded critical nonCritical context.basePath
  size_eq : page.criticalCssSize = critical.utf8ByteSize

theorem finishPage_eq_ok_iff {context : PageContext} {relativePath expanded : String}
    {built : BuiltPage} {used : List String}
    (hused : Candidate.used context.libraries.parseHtml context.registry expanded = used) :
    finishPage context relativePath expanded = .ok built ↔ ∃ critical nonCritical,
      Stylesheet.generate context.libraries.minify
        (pageCss context.registry context.aboveTheFold used).critical context.css.minify
        = .ok critical ∧
      Stylesheet.generate context.libraries.minify
        (pageCss context.registry context.aboveTheFold used).nonCritical context.css.minify
        = .ok nonCritical ∧
      built = {
        relativePath
        html := Page.replacePlaceholders expanded critical nonCritical context.basePath
        criticalCssSize := critical.utf8ByteSize
        usedCandidates := used } := by
  subst hused
  simp only [finishPage, Sequence.bind_eq_ok_iff]
  constructor
  · rintro ⟨critical, hcritical, nonCritical, hnonCritical, h⟩
    cases h
    exact ⟨critical, nonCritical, hcritical, hnonCritical, rfl⟩
  · rintro ⟨critical, nonCritical, hcritical, hnonCritical, rfl⟩
    exact ⟨critical, hcritical, nonCritical, hnonCritical, rfl⟩

theorem page_eq_ok_iff {context : PageContext} {file : PageFile} {built : BuiltPage} :
    page context file = .ok built ↔ ∃ expanded critical nonCritical,
      PageOrigin context file built expanded critical nonCritical := by
  constructor
  · intro h
    unfold page at h
    split at h
    · cases h
    · next html hread =>
        split at h
        · cases h
        · next expanded hexpand =>
            split at h
            · cases h
            · next page hfinish =>
                cases h
                obtain ⟨critical, nonCritical, hcritical, hnonCritical, rfl⟩ :=
                  (finishPage_eq_ok_iff rfl).1 hfinish
                exact ⟨expanded, critical, nonCritical, ⟨html, hread, hexpand⟩, rfl, hcritical,
                  hnonCritical, rfl, rfl, rfl⟩
  · rintro ⟨expanded, critical, nonCritical, ⟨html, hread, hexpand⟩, hused, hcritical, hnonCritical,
      hpath, hhtml, hsize⟩
    have hfinish : finishPage context file.relativePath expanded = .ok built := by
      refine (finishPage_eq_ok_iff hused.symm).2
        ⟨critical, nonCritical, hcritical, hnonCritical, ?_⟩
      rw [← hpath, ← hhtml, ← hsize]
    simp only [page, hread, hexpand, hfinish]

/-! ## The site -/

/-- The candidates of a site. -/
def SiteContext.registry (site : SiteContext) (tree : FileTree) : Registry :=
  (Candidate.load tree site.candidatesDir).1

/-- What a build that has found pages has done. -/
structure Completed (tree : FileTree) (site : SiteContext) (files : List PageFile)
    (written : FileTree) (result : BuildResult) : Prop where
  scanned : PageFile.scan tree site.pagesDir = .ok files
  probed : ∃ events, aboveTheFold site.libraries tree site.probe site.templatesDir
    (site.registry tree) = .ok (result.criticalCandidates, events)
  built : List.Forall₂ (fun file built =>
    page (site.pageContext tree (site.registry tree) result.criticalCandidates) file = .ok built)
    files result.pages
  stylesheet : siteStylesheet site.libraries (site.registry tree) result.criticalCandidates
    result.pages site.settings.css.minify = .ok result.nonCriticalCss
  emitted : result.emit tree site.paths.outDir site.paths.cacheDir = (written, .ok ())

theorem collect_map_eq_ok_iff {race : Race} {context : PageContext} {files : List PageFile}
    {pages : List BuiltPage} : race.collect (files.map (page context)) = .ok pages ↔
      List.Forall₂ (fun file built => page context file = .ok built) files pages := by
  rw [Race.collect_eq_ok_iff, ← List.forall₂_eq_eq_eq, List.forall₂_map_left_iff,
    List.forall₂_map_right_iff]

variable {race : Race} {tree : FileTree} {site : SiteContext}

theorem compilePages_eq_ok {registry : Registry} {files : List PageFile} {result : BuildResult}
    {events : List Event}
    (h : compilePages race tree site registry files = .ok (result, events)) :
    (∃ probeEvents, aboveTheFold site.libraries tree site.probe site.templatesDir registry
      = .ok (result.criticalCandidates, probeEvents)) ∧
    List.Forall₂ (fun file built =>
      page (site.pageContext tree registry result.criticalCandidates) file = .ok built)
      files result.pages ∧
    siteStylesheet site.libraries registry result.criticalCandidates result.pages
      site.settings.css.minify = .ok result.nonCriticalCss := by
  unfold compilePages at h
  split at h
  · cases h
  · next critical probeEvents hprobe =>
      obtain ⟨pages, hpages, h⟩ := Sequence.bind_eq_ok_iff.1 h
      split at h
      · cases h
      · next css hcss =>
          cases h
          exact ⟨⟨probeEvents, hprobe⟩, collect_map_eq_ok_iff.1 hpages, hcss⟩

theorem compileWith_eq_ok {registry : Registry} {result : BuildResult} {events : List Event}
    (h : compileWith race tree site registry = .ok (result, events)) :
    result.pages = [] ∨ ∃ files pageEvents, PageFile.scan tree site.pagesDir = .ok files ∧
      compilePages race tree site registry files = .ok (result, pageEvents) := by
  unfold compileWith at h
  split at h
  · cases h
  · cases h
    exact Or.inl rfl
  · next files _ hscan =>
      obtain ⟨compiled, hpages, h⟩ := Sequence.bind_eq_ok_iff.1 h
      cases h
      exact Or.inr ⟨files, compiled.2, hscan, hpages⟩

theorem compile_eq_ok {checked : Checked} (h : compile race tree site = .ok checked) :
    ∃ events, compileWith race tree site (site.registry tree) = .ok (checked.result, events) := by
  unfold compile at h
  rw [SiteContext.registry]
  cases hload : Candidate.load tree site.candidatesDir with
  | mk registry loadEvents =>
      rw [hload] at h
      obtain ⟨compiled, hcompiled, h⟩ := Sequence.bind_eq_ok_iff.1 h
      cases h
      exact ⟨compiled.2, hcompiled⟩

/-- A successful build has found no page, or it has completed all its steps. -/
theorem run_eq_ok {written : FileTree} {result : BuildResult} {events : List Event}
    (h : run race tree site = (written, .ok (result, events))) :
    result.pages = [] ∨ ∃ files, Completed tree site files written result := by
  unfold run at h
  split at h
  · cases h
  · next checked hchecked =>
      obtain ⟨checkedEvents, hcompiled⟩ := compile_eq_ok hchecked
      split at h
      · next hempty =>
          cases h
          exact Or.inl (List.isEmpty_iff.1 hempty)
      · split at h
        · cases h
        · next emitted hemit =>
            cases h
            rcases compileWith_eq_ok hcompiled with hnone | ⟨files, pageEvents, hscan, hpages⟩
            · exact Or.inl hnone
            · obtain ⟨hprobe, hbuilt, hcss⟩ := compilePages_eq_ok hpages
              exact Or.inr ⟨files, hscan, hprobe, hbuilt, hcss, hemit⟩

/-! ## No race without an error -/

theorem collect_of_collect {race' : Race} {outcomes : List (Except BuildError BuiltPage)}
    {pages : List BuiltPage} (h : race.collect outcomes = .ok pages) :
    race'.collect outcomes = .ok pages :=
  Race.collect_eq_ok_iff.2 (Race.collect_eq_ok_iff.1 h)

theorem compilePages_of_compilePages {registry : Registry} {files : List PageFile}
    {built : BuildResult × List Event} (h : compilePages race tree site registry files = .ok built)
    (race' : Race) : compilePages race' tree site registry files = .ok built := by
  unfold compilePages at h ⊢
  split at h
  · cases h
  · obtain ⟨pages, hpages, h⟩ := Sequence.bind_eq_ok_iff.1 h
    exact Sequence.bind_eq_ok_iff.2 ⟨pages, collect_of_collect hpages, h⟩

theorem compileWith_of_compileWith {registry : Registry} {built : BuildResult × List Event}
    (h : compileWith race tree site registry = .ok built) (race' : Race) :
    compileWith race' tree site registry = .ok built := by
  unfold compileWith at h ⊢
  split at h
  · cases h
  · exact h
  · obtain ⟨compiled, hpages, h⟩ := Sequence.bind_eq_ok_iff.1 h
    exact Sequence.bind_eq_ok_iff.2 ⟨compiled, compilePages_of_compilePages hpages race', h⟩

/-- A site that compiles does so whoever would win a race. -/
theorem compile_of_compile {checked : Checked} (h : compile race tree site = .ok checked)
    (race' : Race) : compile race' tree site = .ok checked := by
  unfold compile at h ⊢
  cases hload : Candidate.load tree site.candidatesDir with
  | mk registry loadEvents =>
      rw [hload] at h
      obtain ⟨compiled, hcompiled, h⟩ := Sequence.bind_eq_ok_iff.1 h
      exact Sequence.bind_eq_ok_iff.2 ⟨compiled, compileWith_of_compileWith hcompiled race', h⟩

/-! ## The tree after a build -/

variable {written : FileTree} {checked : Checked}

/-- A build that fails before it writes leaves the tree as it was. -/
theorem run_eq_of_error {error : BuildError} (h : compile race tree site = .error error) :
    run race tree site = (tree, .error error) := by
  unfold run
  split
  · next e he =>
      obtain rfl := Except.error.inj (he.symm.trans h)
      rfl
  · next found hfound => exact nomatch hfound.symm.trans h

/-- A build that finds no page leaves the tree as it was. -/
theorem run_eq_of_no_page (h : compile race tree site = .ok checked)
    (hempty : checked.result.pages = []) :
    run race tree site = (tree, .ok (checked.result, checked.events)) := by
  unfold run
  split
  · next e he => exact nomatch he.symm.trans h
  · next found hfound =>
      obtain rfl := Except.ok.inj (hfound.symm.trans h)
      rw [if_pos (List.isEmpty_iff.2 hempty)]

/-- A build that finds pages writes them out, and its outcome is that of the writing. -/
theorem run_eq_of_emit (written : FileTree) (h : compile race tree site = .ok checked)
    (hpages : checked.result.pages ≠ []) :
    (checked.result.emit tree site.paths.outDir site.paths.cacheDir = (written, .ok ()) →
      ∃ events, run race tree site = (written, .ok (checked.result, events))) ∧
    ∀ error, checked.result.emit tree site.paths.outDir site.paths.cacheDir
      = (written, .error error) → run race tree site = (written, .error (.emit error)) := by
  unfold run
  split
  · next e he => exact nomatch he.symm.trans h
  · next found hfound =>
      obtain rfl := Except.ok.inj (hfound.symm.trans h)
      rw [if_neg fun hempty => hpages (List.isEmpty_iff.1 hempty)]
      constructor
      · intro hemit
        rw [hemit]
        exact ⟨_, rfl⟩
      · intro error hemit
        rw [hemit]

theorem fst_run_of_pages (h : compile race tree site = .ok checked)
    (hpages : checked.result.pages ≠ []) : (run race tree site).1
      = (checked.result.emit tree site.paths.outDir site.paths.cacheDir).1 := by
  obtain ⟨hok, herror⟩ := run_eq_of_emit
    (checked.result.emit tree site.paths.outDir site.paths.cacheDir).1 h hpages
  cases houtcome : (checked.result.emit tree site.paths.outDir site.paths.cacheDir).2 with
  | error e => rw [herror e (Prod.ext rfl houtcome)]
  | ok =>
      obtain ⟨events, hrun⟩ := hok (Prod.ext rfl houtcome)
      rw [hrun]

/-- A build that succeeds has compiled the site. -/
theorem exists_compile_of_run {result : BuildResult} {events : List Event}
    (h : run race tree site = (written, .ok (result, events))) :
    ∃ checked, compile race tree site = .ok checked ∧ checked.result = result := by
  unfold run at h
  split at h
  · cases h
  · next checked hchecked =>
      split at h
      · cases h
        exact ⟨checked, hchecked, rfl⟩
      · split at h
        · cases h
        · cases h
          exact ⟨checked, hchecked, rfl⟩

/-- What is known of the result of a build says also that the build succeeds. -/
theorem exists_of_run {α : Type} {facts : α} (f : BuildResult → α)
    (h : ((run race tree site).2.map fun built => f built.1) = .ok facts) :
    ∃ written result events,
      run race tree site = (written, .ok (result, events)) ∧ f result = facts := by
  generalize run race tree site = outcome at h ⊢
  obtain ⟨⟨result, events⟩, hresult, hfacts⟩ := Sequence.map_eq_ok_iff.1 h
  exact ⟨outcome.1, result, events, Prod.ext rfl hresult, hfacts⟩

end SiteCompiler.Build
