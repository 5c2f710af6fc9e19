import SiteCompiler.Library.StandIn
import SiteCompiler.Proofs.Build.Layout
set_option autoImplicit false

/-! # When a site that compiles can be written

A site is written to two directories, neither of them inside the other, where nothing stands yet and
directories can be made. A directory that is made for pages may have the name of the stylesheet, or
of the manifest where both directories are one (`BuildResult.Obstructed`). And names that are not
UTF-8 may have become too long for a file system when they were read, or a page may have come to
stand where another one needs a directory (`Spread` says that this is not so). The site is written
exactly if nothing of that is the case (`BuildResult.spread_of_emit`, `BuildResult.emit_outcome`),
while a check of the site sees no difference (`run_of_compile`).
-/

namespace SiteCompiler

open FileTree SiteCompiler.Path

namespace FileTree

/-- A path at which directories can be made and nothing stands yet. -/
structure FreePlace (tree : FileTree) (dir : Path) : Prop where
  ordinary : ∀ name ∈ dir.names, IsOrdinary name
  new : tree.entry? dir.names = none
  way : tree.WayFree dir.names

instance (tree : FileTree) (dir : Path) : Decidable (tree.FreePlace dir) := decidable_of_iff
  ((∀ name ∈ dir.names, IsOrdinary name) ∧ tree.entry? dir.names = none ∧ tree.WayFree dir.names)
  ⟨fun ⟨hordinary, hnew, hway⟩ => ⟨hordinary, hnew, hway⟩, fun h => ⟨h.ordinary, h.new, h.way⟩⟩

variable {tree reached : FileTree} {dir : Path} {brought : Location → Entry → Prop}
  {loc : Location}

theorem FreePlace.isPlain (h : tree.FreePlace dir) : dir.IsPlain := fun name hname =>
  ⟨(h.ordinary name hname).1, (h.ordinary name hname).2.1⟩

/-- A way stays free unless a file is brought to it. -/
theorem ChangedBy.wayFree (h : ChangedBy brought tree reached) (hway : tree.WayFree loc)
    (hno : ∀ above, above <+: loc → ∀ bytes, ¬ brought above (.file bytes)) :
    reached.WayFree loc := by
  intro above habove bytes hentry
  rcases h.origin above _ hentry with hbefore | hbrought
  · exact hway above habove bytes hbefore
  · exact hno above habove bytes hbrought

/-- A place is no directory unless one is brought to it. -/
theorem ChangedBy.ne_directory (h : ChangedBy brought tree reached)
    (hne : tree.entry? loc ≠ some .directory) (hno : ¬ brought loc .directory) :
    reached.entry? loc ≠ some .directory := by
  intro hentry
  rcases h.origin loc _ hentry with hbefore | hbrought
  · exact hne hbefore
  · exact hno hbrought

theorem FreePlace.ne_directory (hsound : tree.Sound) (h : tree.FreePlace dir)
    (names : List OsText) : tree.entry? (dir.names ++ names) ≠ some .directory := by
  rw [hsound.entry?_append_of_none h.new]
  exact nofun

/-- Below a free place no file is in the way. -/
theorem FreePlace.wayFree_append (hsound : tree.Sound) (h : tree.FreePlace dir)
    (names : List OsText) : tree.WayFree (dir.names ++ names) := by
  intro above habove bytes hentry
  rcases List.prefix_or_prefix_of_prefix habove (List.prefix_append _ names) with hup | ⟨rest, rfl⟩
  · exact h.way above hup bytes hentry
  · rw [hsound.entry?_append_of_none h.new] at hentry
    cases hentry

/-- Making directories at a free way succeeds. -/
theorem Plain.apply_makeDirectories (hplain : tree.Plain) (hdir : dir.IsPlain)
    (hordinary : ∀ name ∈ dir.names, IsOrdinary name) (hway : tree.WayFree dir.names) :
    (tree.apply (.makeDirectories dir)).2 = .ok () :=
  hplain.makeDirectories_eq_ok hdir hordinary hway

/-- Writing to a directory that exists succeeds unless the place is one itself. -/
theorem Plain.apply_write (hplain : tree.Plain) {path : Path} (hpath : path.IsPlain) {text : String}
    {above : Location} {name : OsText} (hnames : path.names = above ++ [name])
    (hends : endsWithSeparator path.raw = false) (hordinary : IsOrdinary name)
    (habove : tree.entry? above = some .directory)
    (hnot : tree.entry? (above ++ [name]) ≠ some .directory) :
    (tree.apply (.write path text)).2 = .ok () := by
  have hwrite : tree.writeText path text
      = .ok (tree.put (above ++ [name]) (.file text.toUTF8)) :=
    (hplain.writeText_eq_ok_iff hpath hnames).2 ⟨hends, habove, hordinary, hnot, rfl⟩
  rw [apply, hwrite]

/-- A file is written beside what a directory holds unless a directory has its name. -/
theorem Plain.apply_write_beside (hplain : tree.Plain) (text : String) (hdir : dir.IsPlain)
    {name : OsText} (hname : IsName name) (habove : tree.entry? dir.names = some .directory) :
    (tree.entry? (dir.names ++ [name]) = some .directory →
      tree.apply (.write (dir.join name) text) = (tree, .error .isADirectory)) ∧
    (tree.entry? (dir.names ++ [name]) ≠ some .directory →
      (tree.apply (.write (dir.join name) text)).2 = .ok ()) := by
  have hplainJoin := isPlain_join hdir hname.1 ⟨hname.2.1, hname.2.2.1⟩
  have hends := endsWithSeparator_join (p := dir) hname.1
  constructor
  · intro htaken
    rw [apply, hplain.writeText_eq_isADirectory hplainJoin (names_join hname.1) hends htaken]
  · exact hplain.apply_write hplainJoin (names_join hname.1) hends hname.2 habove

end FileTree

/-- Pages that can all be written to one directory: their names are not too long, and no page stands
where another one needs a directory. -/
structure Spread (pages : List BuiltPage) : Prop where
  fits : ∀ page ∈ pages, ∀ name ∈ page.names, IsOrdinary name
  apart : ∀ page ∈ pages, ∀ other ∈ pages, page.names <+: other.names → page.names = other.names

instance (pages : List BuiltPage) : Decidable (Spread pages) := decidable_of_iff
  ((∀ page ∈ pages, ∀ name ∈ page.names, IsOrdinary name) ∧
    ∀ page ∈ pages, ∀ other ∈ pages, page.names <+: other.names → page.names = other.names)
  ⟨fun ⟨hfits, hapart⟩ => ⟨hfits, hapart⟩, fun h => ⟨h.fits, h.apart⟩⟩

namespace BuildResult

variable {tree reached : FileTree} {outDir cacheDir : Path} {result : BuildResult} {loc : Location}

/-- A directory of pages has the name of the stylesheet. -/
def SheetBlocked (result : BuildResult) : Prop :=
  result.hasStylesheet = true ∧
    ∃ page ∈ result.pages, [OsText.ofText Page.stylesheetName] <+: page.names

/-- A directory of pages has the place of the manifest. -/
def ManifestBlocked (result : BuildResult) (outDir cacheDir : Path) : Prop :=
  outDir.names = cacheDir.names ∧
    ∃ page ∈ result.pages, [OsText.ofText Manifest.fileName] <+: page.names

/-- A file that is to be written finds a directory of pages in its place. -/
def Obstructed (result : BuildResult) (outDir cacheDir : Path) : Prop :=
  result.SheetBlocked ∨ result.ManifestBlocked outDir cacheDir

/-! ## The pages -/

theorem append_singleton_not_prefix {names : List OsText} {name : OsText} :
    ¬ names ++ [name] <+: names := by
  intro h
  have hlength := h.length_le
  rw [List.length_append, List.length_singleton] at hlength
  omega

/-- No page stands on the way to another one. -/
theorem not_brought_on_way (hlayout : IsLayout result.pages) (hspread : Spread result.pages)
    (hout : outDir.IsPlain) {page : BuiltPage} (hpage : page ∈ result.pages)
    (hloc : loc <+: outDir.names ++ page.names.dropLast) (bytes : ByteArray) :
    ¬ Brought (result.pagePart outDir) loc (.file bytes) := by
  rw [brought_pagePart_file_iff hlayout hout]
  rintro ⟨other, hother, rfl, -⟩
  have hpre := (List.prefix_append_right_inj _).1 hloc
  rw [hspread.apart other hother page hpage (hpre.trans (List.dropLast_prefix _))] at hpre
  obtain ⟨above, last, hnames⟩ := page.exists_names_eq
  rw [hnames, List.dropLast_concat] at hpre
  exact append_singleton_not_prefix hpre

/-- No directory is made in the place of a page. -/
theorem not_brought_at_page (hlayout : IsLayout result.pages) (hspread : Spread result.pages)
    (hout : outDir.IsPlain) {page : BuiltPage} (hpage : page ∈ result.pages) :
    ¬ Brought (result.pagePart outDir) (outDir.names ++ page.names) .directory := by
  rw [brought_pagePart_directory_iff hlayout hout]
  rintro (hpre | ⟨other, hother, hpre⟩)
  · have hlength := hpre.length_le
    rw [List.length_append] at hlength
    exact page.names_ne_nil (List.eq_nil_of_length_eq_zero (by omega))
  · exact not_brought_on_way hlayout hspread hout hother hpre page.html.toUTF8
      ((brought_pagePart_file_iff hlayout hout).2 ⟨page, hpage, rfl, rfl⟩)

/-- A page can be written: nothing stands in the way of its directories, and no directory in its
place. -/
theorem applyAll_page_ok (hplain : tree.Plain) (hlayout : IsLayout result.pages)
    (hspread : Spread result.pages) (hfree : tree.FreePlace outDir) {page : BuiltPage}
    (hpage : page ∈ result.pages)
    (hchanged : ChangedBy (Brought (result.pagePart outDir)) tree reached) :
    (reached.applyAll (pageSteps outDir page)).2 = .ok () := by
  obtain ⟨above, habove, hnames, hsteps⟩ := exists_pageSteps hlayout hpage hfree.isPlain
  obtain ⟨upper, last, hpageNames⟩ := page.exists_names_eq
  have hordinary : ∀ name ∈ outDir.names ++ page.names, IsOrdinary name := by
    intro name hname
    rcases List.mem_append.1 hname with hname | hname
    · exact hfree.ordinary name hname
    · exact hspread.fits page hpage name hname
  have hmake : (reached.apply (.makeDirectories above)).2 = .ok () := by
    refine hchanged.plain.apply_makeDirectories habove ?_ ?_
    · intro name hname
      rw [hnames] at hname
      exact hordinary name (((List.prefix_append_right_inj _).2
        (List.dropLast_prefix _)).subset hname)
    · rw [hnames]
      exact hchanged.wayFree (hfree.wayFree_append hplain.toSound _)
        fun loc hloc bytes => not_brought_on_way hlayout hspread hfree.isPlain hpage hloc bytes
  obtain ⟨hmade, hthere⟩ := hchanged.plain.apply_changedBy (.makeDirectories above) habove
  have hmade := hchanged.trans (hmade.mono fun loc entry hbrings =>
    Brought.mono ⟨_, by simp [hsteps], hbrings⟩ (pageSteps_subset hpage))
  have hdirectory := hthere hmake _ _ ⟨List.prefix_rfl, rfl⟩
  rw [hnames, hpageNames, List.dropLast_concat] at hdirectory
  have hpathNames : (outputPath outDir page.relativePath).names
      = outDir.names ++ upper ++ [last] := by
    rw [names_outputPath (hlayout.isSegment hpage), hpageNames, List.append_assoc]
  have hwrite : ((reached.apply (.makeDirectories above)).1.apply
      (.write (outputPath outDir page.relativePath) page.html)).2 = .ok () := by
    refine hmade.plain.apply_write (isPlain_outputPath hlayout hpage hfree.isPlain) hpathNames
      (endsWithSeparator_joinAll (hlayout.isSegment hpage) page.names_ne_nil)
      (hordinary last (by simp [hpageNames])) hdirectory ?_
    rw [List.append_assoc, ← hpageNames]
    exact hmade.ne_directory (hfree.ne_directory hplain.toSound _)
      (not_brought_at_page hlayout hspread hfree.isPlain hpage)
  rw [hsteps, applyAll_cons_of_ok (Prod.ext rfl hmake), applyAll_cons_of_ok (Prod.ext rfl hwrite)]
  rfl

theorem applyAll_pages_ok (hplain : tree.Plain) (hlayout : IsLayout result.pages)
    (hspread : Spread result.pages) (hfree : tree.FreePlace outDir) (pages : List BuiltPage)
    (hpages : pages ⊆ result.pages)
    (hchanged : ChangedBy (Brought (result.pagePart outDir)) tree reached) :
    (reached.applyAll (pages.flatMap (pageSteps outDir))).2 = .ok () := by
  induction pages generalizing reached with
  | nil => rfl
  | cons page pages ih =>
      have hpage : page ∈ result.pages := hpages List.mem_cons_self
      have hok := applyAll_page_ok hplain hlayout hspread hfree hpage hchanged
      have hsteps : ∀ step ∈ pageSteps outDir page, step.IsPlain := fun step hstep =>
        isPlain_pagePart hlayout hfree.isPlain step (pageSteps_subset hpage hstep)
      have hafter := hchanged.plain.applyAll_changedBy hsteps
      cases hrun : reached.applyAll (pageSteps outDir page) with
      | mk after outcome =>
          rw [hrun] at hok hafter
          obtain rfl : outcome = .ok () := hok
          rw [List.flatMap_cons, applyAll_append_of_ok hrun]
          refine ih (fun other hother => hpages (List.mem_cons_of_mem page hother)) ?_
          exact hchanged.trans (hafter.mono fun loc entry h => h.mono (pageSteps_subset hpage))

/-- The output directory can be made and all pages written to it. -/
theorem applyAll_pagePart_ok (hplain : tree.Plain) (hlayout : IsLayout result.pages)
    (hspread : Spread result.pages) (hfree : tree.FreePlace outDir) :
    (tree.applyAll (result.pagePart outDir)).2 = .ok () := by
  have hmake := hplain.apply_makeDirectories hfree.isPlain hfree.ordinary hfree.way
  obtain ⟨hmade, -⟩ := hplain.apply_changedBy (.makeDirectories outDir) hfree.isPlain
  rw [pagePart, applyAll_cons_of_ok (Prod.ext rfl hmake)]
  exact applyAll_pages_ok hplain hlayout hspread hfree result.pages (List.Subset.refl _)
    (hmade.mono fun loc entry hbrings => brought_cons.2 (Or.inl hbrings))

/-- After the pages everything that they need is there. -/
theorem exists_applyAll_pagePart (hplain : tree.Plain) (hlayout : IsLayout result.pages)
    (hspread : Spread result.pages) (hfree : tree.FreePlace outDir) : ∃ reached,
      tree.applyAll (result.pagePart outDir) = (reached, .ok ()) ∧
      ChangedBy (Brought (result.pagePart outDir)) tree reached ∧
      ∀ loc, Brought (result.pagePart outDir) loc .directory →
        reached.entry? loc = some .directory := by
  have hsteps := isPlain_pagePart hlayout hfree.isPlain
  have hrun : tree.applyAll (result.pagePart outDir) = (_, .ok ()) :=
    Prod.ext rfl (applyAll_pagePart_ok hplain hlayout hspread hfree)
  exact ⟨_, hrun, hplain.changedBy_of_applyAll hsteps hrun,
    fun loc hbrought => (hplain.holds_applyAll hsteps hrun).directory hbrought⟩

/-! ## The stylesheet and the manifest -/

/-- Beside the pages a directory is made under a name exactly if a page lies below it. -/
theorem brought_beside_iff (hlayout : IsLayout result.pages) (hout : outDir.IsPlain) {name : OsText}
    (hname : PageFile.isPageName name = false) :
    Brought (result.pagePart outDir) (outDir.names ++ [name]) .directory ↔
      ∃ page ∈ result.pages, [name] <+: page.names := by
  rw [brought_pagePart_directory_iff hlayout hout, or_iff_right append_singleton_not_prefix]
  refine exists_congr fun page => and_congr_right fun hpage => ?_
  rw [List.prefix_append_right_inj]
  constructor
  · exact fun h => h.trans (List.dropLast_prefix _)
  · intro h
    obtain ⟨above, last, hnames⟩ := page.exists_names_eq
    rw [hnames, List.dropLast_concat]
    rw [hnames] at h
    rcases List.prefix_concat_iff.1 h with heq | h
    · -- The page itself does not have that name.
      rw [← hnames] at heq
      exact absurd heq.symm (hlayout.append_names_ne hpage hname [] [])
    · exact h

/-- The stylesheet is written unless its place is taken. -/
theorem applyAll_sheetPart (hplain : tree.Plain) (hlayout : IsLayout result.pages)
    (hfree : tree.FreePlace outDir)
    (hchanged : ChangedBy (Brought (result.pagePart outDir)) tree reached)
    (hthere : ∀ loc, Brought (result.pagePart outDir) loc .directory →
      reached.entry? loc = some .directory) :
    (result.SheetBlocked → reached.applyAll (result.sheetPart outDir)
      = (reached, .error .isADirectory)) ∧
    (¬ result.SheetBlocked → (reached.applyAll (result.sheetPart outDir)).2 = .ok ()) := by
  have hout : reached.entry? outDir.names = some .directory := hthere _
    ((brought_pagePart_directory_iff hlayout hfree.isPlain).2 (Or.inl List.prefix_rfl))
  have hiff := brought_beside_iff hlayout hfree.isPlain isPageName_stylesheetName
  obtain ⟨hfail, hwrite⟩ := hchanged.plain.apply_write_beside result.nonCriticalCss
    hfree.isPlain isName_stylesheetName hout
  constructor
  · rintro ⟨hhas, hpage⟩
    rw [sheetPart, if_pos hhas, applyAll_cons_of_error (hfail (hthere _ (hiff.2 hpage)))]
  · intro hblocked
    rw [sheetPart]
    split
    · next hhas =>
        have hnot := hchanged.ne_directory (hfree.ne_directory hplain.toSound _)
          fun hbrought => hblocked ⟨hhas, hiff.1 hbrought⟩
        rw [applyAll_cons_of_ok (Prod.ext rfl (hwrite hnot))]
        rfl
    · rfl

/-- The files that are written before the manifest lie below the output directory. -/
theorem below_of_brought_file (hlayout : IsLayout result.pages) (hout : outDir.IsPlain)
    {bytes : ByteArray}
    (h : Brought (result.pagePart outDir ++ result.sheetPart outDir) loc (.file bytes)) :
    ∃ names, names ≠ [] ∧ loc = outDir.names ++ names := by
  rcases brought_append.1 h with h | h
  · obtain ⟨page, -, rfl, -⟩ := (brought_pagePart_file_iff hlayout hout).1 h
    exact ⟨page.names, page.names_ne_nil, rfl⟩
  · obtain ⟨-, rfl, -⟩ := brought_sheetPart_iff.1 h
    exact ⟨[OsText.ofText Page.stylesheetName], List.cons_ne_nil _ _, rfl⟩

/-- The two directories of a build are one, or neither is inside the other. -/
def Apart (outDir cacheDir : Path) : Prop :=
  outDir.names <+: cacheDir.names ∨ cacheDir.names <+: outDir.names →
    outDir.names = cacheDir.names

instance (outDir cacheDir : Path) : Decidable (Apart outDir cacheDir) :=
  inferInstanceAs (Decidable (_ ∨ _ → _))

/-- A directory of pages in the place of the manifest stands in the one directory of the build. -/
theorem manifestBlocked_of_brought (hlayout : IsLayout result.pages) (hout : outDir.IsPlain)
    (hapart : Apart outDir cacheDir)
    (h : Brought (result.pagePart outDir) (cacheDir.names ++ [OsText.ofText Manifest.fileName])
      .directory) :
    result.ManifestBlocked outDir cacheDir := by
  have habove : cacheDir.names <+: cacheDir.names ++ [OsText.ofText Manifest.fileName] :=
    List.prefix_append _ _
  have hsame : outDir.names = cacheDir.names := by
    rcases (brought_pagePart_directory_iff hlayout hout).1 h with hpre | ⟨page, -, hpre⟩
    · exact hapart (Or.inr (habove.trans hpre))
    · rcases List.prefix_or_prefix_of_prefix hpre (List.prefix_append _ _) with hup | hdown
      · exact hapart (Or.inr (habove.trans hup))
      · rcases List.prefix_concat_iff.1 hdown with heq | hdown
        · exact hapart (Or.inr (heq ▸ habove))
        · exact hapart (Or.inl hdown)
  rw [← hsame] at h
  exact ⟨hsame, (brought_beside_iff hlayout hout isPageName_manifest).1 h⟩

/-- The manifest is written unless its place is taken. -/
theorem applyAll_manifestPart (hplain : tree.Plain) (hlayout : IsLayout result.pages)
    (hout : tree.FreePlace outDir) (hcache : tree.FreePlace cacheDir)
    (hapart : Apart outDir cacheDir)
    (hchanged :
      ChangedBy (Brought (result.pagePart outDir ++ result.sheetPart outDir)) tree reached)
    (hthere : ∀ loc, Brought (result.pagePart outDir) loc .directory →
      reached.entry? loc = some .directory) :
    (result.ManifestBlocked outDir cacheDir →
      (reached.applyAll (result.manifestPart cacheDir)).2 = .error .isADirectory) ∧
    (¬ result.ManifestBlocked outDir cacheDir →
      (reached.applyAll (result.manifestPart cacheDir)).2 = .ok ()) := by
  have hiff := brought_beside_iff hlayout hout.isPlain isPageName_manifest
  -- The cache directory can be made: the files of the build lie below the output directory.
  have hmake : (reached.apply (.makeDirectories cacheDir)).2 = .ok () := by
    refine hchanged.plain.apply_makeDirectories hcache.isPlain hcache.ordinary
      (hchanged.wayFree hcache.way fun above habove bytes hbrought => ?_)
    obtain ⟨names, hne, rfl⟩ := below_of_brought_file hlayout hout.isPlain hbrought
    have hlength := habove.length_le
    rw [← hapart (Or.inl ((List.prefix_append _ _).trans habove)), List.length_append] at hlength
    exact hne (List.eq_nil_of_length_eq_zero (by omega))
  obtain ⟨hmade, hmadeThere⟩ := hchanged.plain.apply_changedBy (.makeDirectories cacheDir)
    hcache.isPlain
  have hdirectory := hmadeThere hmake _ _ ⟨List.prefix_rfl, rfl⟩
  obtain ⟨hfail, hwrite⟩ := hmade.plain.apply_write_beside (Manifest.text result)
    hcache.isPlain isName_manifest hdirectory
  rw [manifestPart, applyAll_cons_of_ok (Prod.ext rfl hmake)]
  constructor
  · rintro ⟨hsame, hpage⟩
    have htaken := hmade.directory (hthere _ (hiff.2 hpage))
    rw [hsame] at htaken
    rw [applyAll_cons_of_error (hfail htaken)]
  · intro hblocked
    have hnot : reached.entry? (cacheDir.names ++ [OsText.ofText Manifest.fileName])
        ≠ some .directory := by
      refine hchanged.ne_directory (hcache.ne_directory hplain.toSound _) fun hbrought => ?_
      rcases brought_append.1 hbrought with hbrought | hbrought
      · exact hblocked (manifestBlocked_of_brought hlayout hout.isPlain hapart hbrought)
      · cases (brought_sheetPart_iff.1 hbrought).2.2
    rw [applyAll_cons_of_ok (Prod.ext rfl (hwrite
      (hmade.ne_directory hnot fun hbrought => append_singleton_not_prefix hbrought.1)))]
    rfl

/-- Only pages that are spread can all be written. -/
theorem spread_of_emit (hplain : tree.Plain) (hlayout : IsLayout result.pages)
    (hout : outDir.IsPlain) (hcache : cacheDir.IsPlain) {written : FileTree}
    (hemit : result.emit tree outDir cacheDir = (written, .ok ())) : Spread result.pages := by
  have hsteps := isPlain_steps hlayout hout hcache
  have hwritten := (hplain.changedBy_of_applyAll hsteps hemit).plain
  have hfile : ∀ page ∈ result.pages, ∃ bytes,
      written.entry? (outDir.names ++ page.names) = some (.file bytes) := fun page hpage =>
    (hplain.holds_applyAll hsteps hemit).file hwritten (brought_page hlayout hout hpage)
  constructor
  · intro page hpage name hname
    obtain ⟨bytes, hentry⟩ := hfile page hpage
    exact (hwritten.isName hentry (List.mem_append_right _ hname)).2
  · rintro page hpage other hother ⟨rest, hrest⟩
    obtain ⟨bytes, hentry⟩ := hfile page hpage
    obtain ⟨bytes', hentry'⟩ := hfile other hother
    rw [← hrest, ← List.append_assoc] at hentry'
    rw [← hrest, hwritten.eq_nil_of_file hentry hentry', List.append_nil]

/-- Pages that are spread are written to new directories, unless a directory of pages is in the
way of another file. -/
theorem emit_outcome (hplain : tree.Plain) (hlayout : IsLayout result.pages)
    (hspread : Spread result.pages) (hout : tree.FreePlace outDir) (hcache : tree.FreePlace cacheDir)
    (hapart : Apart outDir cacheDir) :
    (result.Obstructed outDir cacheDir →
      (result.emit tree outDir cacheDir).2 = .error .isADirectory) ∧
    (¬ result.Obstructed outDir cacheDir → (result.emit tree outDir cacheDir).2 = .ok ()) := by
  obtain ⟨reached, hpages, hchanged, hthere⟩ :=
    exists_applyAll_pagePart hplain hlayout hspread hout
  obtain ⟨hsheetFail, hsheetOk⟩ := applyAll_sheetPart hplain hlayout hout hchanged hthere
  rw [emit, steps_eq, applyAll_append_of_ok hpages]
  by_cases hsheet : result.SheetBlocked
  · rw [applyAll_append_of_error (hsheetFail hsheet)]
    exact ⟨fun _ => rfl, fun hnot => absurd (Or.inl hsheet) hnot⟩
  · have hstyled := hchanged.plain.applyAll_changedBy
      (isPlain_sheetPart result hout.isPlain)
    obtain ⟨hmanifestFail, hmanifestOk⟩ := applyAll_manifestPart hplain hlayout hout hcache hapart
      ((hchanged.mono fun _ _ h => brought_append.2 (Or.inl h)).trans
        (hstyled.mono fun _ _ h => brought_append.2 (Or.inr h)))
      fun loc hbrought => hstyled.directory (hthere loc hbrought)
    rw [applyAll_append_of_ok (Prod.ext rfl (hsheetOk hsheet))]
    constructor
    · exact fun h => hmanifestFail (h.resolve_left hsheet)
    · exact fun h => hmanifestOk fun hblocked => h (Or.inr hblocked)

end BuildResult

/-! ## Checking and building -/

namespace Build

/-- Pages whose names are texts are spread. -/
theorem spread_of_allText {tree : FileTree} {context : PageContext} {dir : Path}
    {files : List PageFile} {pages : List BuiltPage} (hplain : tree.Plain)
    (hscan : PageFile.scan tree dir = .ok files)
    (hbuilt : List.Forall₂ (fun file built => page context file = .ok built) files pages)
    (htext : PageFile.AllText tree dir) : Spread pages := by
  obtain ⟨here, hreaches, hpages⟩ := exists_leadsToPage hplain hscan hbuilt
  -- Such names are what a reader sees.
  have hleads : ∀ page ∈ pages, PageFile.LeadsToPage tree here page.names := by
    intro page hpage
    obtain ⟨names, hnames, hread⟩ := hpages page hpage
    have hpageAt :=
      (PageFile.reachesPage_iff_pageAt hplain.toSound).1 ((hreaches names).2 hnames)
    have hsame : names.map reading = names := PageFile.map_ofText_text (htext names hpageAt)
    rwa [hread, hsame]
  constructor
  · exact fun page hpage name hname => ((hleads page hpage).isName hplain.toSound name hname).2
  · exact fun page hpage other hother =>
      (hleads page hpage).eq_of_isPrefix hplain.toSound (hleads other hother)

theorem spread_of_compile {race : Race} {tree : FileTree} {site : SiteContext} {checked : Checked}
    (hplain : tree.Plain) (h : compile race tree site = .ok checked)
    (htext : PageFile.AllText tree site.pagesDir) : Spread checked.result.pages := by
  obtain ⟨events, hcompiled⟩ := compile_eq_ok h
  rcases compileWith_eq_ok hcompiled with hnone | ⟨files, pageEvents, hscan, hpages⟩
  · rw [hnone]
    exact ⟨nofun, nofun⟩
  · obtain ⟨-, hbuilt, -⟩ := compilePages_eq_ok hpages
    exact spread_of_allText hplain hscan hbuilt htext

/-- **A site that checks also builds, unless its pages cannot stand in one directory or a directory
of pages has the name of a file that the build writes.** The site is written to two directories that
do not exist and can be made, one and the same or neither inside the other. If the pages cannot be
spread below the output directory, then the check succeeds and the build fails; that takes names
that are not texts. If they can, but a page lies below a directory with the name of the stylesheet,
and there is a stylesheet, then the build fails as well; likewise if the two directories are one and
a page lies below a directory with the name of the manifest. In all other cases the build succeeds
with the result that was checked. -/
theorem run_of_compile (race race' : Race) (tree : FileTree) (site : SiteContext)
    (checked : Checked) (hplain : tree.Plain) (hout : tree.FreePlace site.paths.outDir)
    (hcache : tree.FreePlace site.paths.cacheDir)
    (hapart : BuildResult.Apart site.paths.outDir site.paths.cacheDir)
    (hcompile : compile race tree site = .ok checked) :
    (¬ Spread checked.result.pages →
      ∃ error, (run race' tree site).2 = .error (.emit error)) ∧
    (PageFile.AllText tree site.pagesDir → Spread checked.result.pages) ∧
    (Spread checked.result.pages →
      (checked.result.Obstructed site.paths.outDir site.paths.cacheDir →
        (run race' tree site).2 = .error (.emit .isADirectory)) ∧
      (¬ checked.result.Obstructed site.paths.outDir site.paths.cacheDir →
        ∃ events, (run race' tree site).2 = .ok (checked.result, events))) := by
  have hcompile := compile_of_compile hcompile race'
  have hlayout := isLayout_of_compile hplain hcompile
  by_cases hpages : checked.result.pages = []
  · have hspread : Spread checked.result.pages := by
      rw [hpages]
      exact ⟨nofun, nofun⟩
    refine ⟨fun h => absurd hspread h, fun _ => hspread, fun _ => ⟨?_, ?_⟩⟩
    · -- Without pages nothing is in the way.
      rintro (⟨-, page, hpage, -⟩ | ⟨-, page, hpage, -⟩)
      · rw [hpages] at hpage
        cases hpage
      · rw [hpages] at hpage
        cases hpage
    · rw [run_eq_of_no_page hcompile hpages]
      exact fun _ => ⟨_, rfl⟩
  · obtain ⟨hok, herror⟩ := run_eq_of_emit
      (checked.result.emit tree site.paths.outDir site.paths.cacheDir).1 hcompile hpages
    refine ⟨fun hnot => ?_, spread_of_compile hplain hcompile, fun hspread => ?_⟩
    · cases houtcome : (checked.result.emit tree site.paths.outDir site.paths.cacheDir).2 with
      | ok =>
          exact absurd (BuildResult.spread_of_emit hplain hlayout hout.isPlain hcache.isPlain
            (Prod.ext rfl houtcome)) hnot
      | error e => exact ⟨e, by rw [herror e (Prod.ext rfl houtcome)]⟩
    · obtain ⟨hfails, hwrites⟩ :=
        BuildResult.emit_outcome hplain hlayout hspread hout hcache hapart
      constructor
      · intro hobstructed
        rw [herror _ (Prod.ext rfl (hfails hobstructed))]
      · intro hclear
        obtain ⟨events, hrun⟩ := hok (Prod.ext rfl (hwrites hclear))
        exact ⟨events, by rw [hrun]⟩

/-- A site with a page below a directory that is named as the stylesheet. -/
def sheetTree : FileTree where
  entries := [(["pages"], .directory), (["pages", "styles.css"], .directory),
    (["pages", "styles.css", "x.html"], .file "<p class=t>".toUTF8), (["candidates"], .directory),
    (["candidates", "utils"], .directory), (["candidates", "utils", "t"], .directory),
    (["candidates", "utils", "t", "non-critical.css"], .file ".t\x7bgap:0\x7d".toUTF8)]

def sheetSite : SiteContext where
  libraries := .standIn
  paths := { srcRoot := ⟨""⟩, outDir := ⟨"dist"⟩, cacheDir := ⟨"cache"⟩, basePath := "" }
  settings := .default

theorem run_of_compile_sheetTree : ∃ checked, compile .inOrder sheetTree sheetSite = .ok checked ∧
    (run .inOrder sheetTree sheetSite).2 = .error (.emit .isADirectory) := by
  have hresult : ((compile .inOrder sheetTree sheetSite).map fun checked =>
      (checked.result.hasStylesheet, checked.result.pages.map BuiltPage.names))
      = .ok (true, [["styles.css", "x.html"]]) := by
    decide +kernel
  obtain ⟨checked, hcompile, hfacts⟩ := Sequence.map_eq_ok_iff.1 hresult
  obtain ⟨hhas, hpages⟩ := Prod.mk.inj hfacts
  obtain ⟨page, hpage, hnames⟩ := List.map_eq_singleton_iff.1 hpages
  have hblocked : checked.result.SheetBlocked :=
    ⟨hhas, page, by simp [hpage], by rw [hnames]; decide⟩
  obtain ⟨-, hspread, hbuilds⟩ := run_of_compile .inOrder .inOrder sheetTree sheetSite checked
    (by decide +kernel) (by decide +kernel) (by decide +kernel) (by decide +kernel) hcompile
  have htext : PageFile.AllText sheetTree sheetSite.pagesDir :=
    PageFile.allText_of_entries (by decide +kernel) (by decide +kernel)
  exact ⟨checked, hcompile, (hbuilds (hspread htext)).1 (Or.inl hblocked)⟩

end Build

end SiteCompiler
