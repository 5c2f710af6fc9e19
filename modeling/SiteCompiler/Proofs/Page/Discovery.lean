import SiteCompiler.Proofs.Page.Search
import SiteCompiler.Proofs.Text.ByteOrder
import Mathlib.Data.List.Sort
set_option autoImplicit false

/-! # Which pages are found

The search for pages finds every file below the directory that has the name of a page, once, in the
order of the paths as a reader sees them (`scan_exact`). Links are followed; the search fails
exactly at a link that cannot be. Names that are UTF-8 can be told apart by a reader, so as long as
all names of pages are, the order is strict and owes nothing to that in which directories give their
names. Others may look the same (`scan_clashingTree`).

In a tree without links the names of a page are those of its location (`scan_eq`).
-/

namespace SiteCompiler.PageFile

open FileTree SiteCompiler.Path

variable {tree : FileTree} {listed : Location → List OsText} {dir : Path} {here : Location}
variable {files : List PageFile} {names : List OsText}

/-! ## Names in the order of their paths -/

theorem readable_eq (names : List OsText) :
    readable names = (OsText.intercalate slash names).text := (text_intercalate names).symm

theorem ofText_readable (names : List OsText) : OsText.ofText (readable names)
    = OsText.intercalate slash (names.map fun name => name.text) := by
  rw [readable, ofText_intercalate, List.map_map]
  rfl

/-- Names that make a path: there are some, and none of them holds a separator. -/
def MakePath (names : List OsText) : Prop :=
  names ≠ [] ∧ ∀ name ∈ names, separator ∉ name.bytes

/-- The pieces of a path that a reader sees are what he sees of its names. -/
theorem MakePath.pieces_readable (h : MakePath names) :
    pieces (readable names) = names.map fun name => OsText.ofText name.text := by
  rw [ofText_readable]
  refine pieces_intercalate (fun part hpart => ?_) (by simpa using h.1)
  obtain ⟨name, hname, rfl⟩ := List.mem_map.1 hpart
  rw [separator_mem_iff, OsText.text_ofText, ← separator_mem_iff]
  exact h.2 name hname

theorem map_ofText_text (h : ∀ name ∈ names, name.IsText) :
    names.map (fun name => OsText.ofText name.text) = names := by
  conv_rhs => rw [← List.map_id names]
  exact List.map_congr_left h

/-- A reader can tell paths apart whose names are texts. -/
theorem MakePath.inj {others : List OsText} (h : MakePath names) (h' : MakePath others)
    (htext : ∀ name ∈ names, name.IsText) (htext' : ∀ name ∈ others, name.IsText)
    (heq : readable names = readable others) : names = others := by
  rw [← map_ofText_text htext, ← h.pieces_readable, heq, h'.pieces_readable,
    map_ofText_text htext']

/-- The names that are wanted, each once, in the order of the paths that they make for a reader. -/
structure InOrder (wanted : List OsText → Prop) (found : List (List OsText)) : Prop where
  nodup : found.Nodup
  mem_iff : ∀ names, names ∈ found ↔ wanted names
  sorted : (found.map readable).Pairwise (· ≤ ·)

/-- A reader can tell the wanted names apart. -/
def Legible (wanted : List OsText → Prop) : Prop :=
  ∀ names, wanted names → ∀ others, wanted others → readable names = readable others →
    names = others

namespace InOrder

variable {wanted : List OsText → Prop} {found found' : List (List OsText)}

theorem perm (h : InOrder wanted found) (h' : InOrder wanted found') : found.Perm found' := by
  rw [List.perm_ext_iff_of_nodup h.nodup h'.nodup]
  intro names
  rw [h.mem_iff, h'.mem_iff]

/-- A reader sees the same paths in the same order. -/
theorem map_readable_eq (h : InOrder wanted found) (h' : InOrder wanted found') :
    found.map readable = found'.map readable :=
  ((h.perm h').map readable).eq_of_pairwise (fun _ _ _ _ hle hle' => Std.le_antisymm hle hle')
    h.sorted h'.sorted

/-- There is one such order if a reader can tell the names apart. -/
theorem unique (h : InOrder wanted found) (h' : InOrder wanted found')
    (hlegible : Legible wanted) : found = found' := by
  refine (h.perm h').eq_of_pairwise ?_ (List.pairwise_map.1 h.sorted)
    (List.pairwise_map.1 h'.sorted)
  intro names others hnames hothers hle hle'
  exact hlegible names ((h.mem_iff names).1 hnames) others ((h'.mem_iff others).1 hothers)
    (Std.le_antisymm hle hle')

theorem strict (h : InOrder wanted found) (hlegible : Legible wanted) :
    (found.map readable).Pairwise (· < ·) := by
  refine List.pairwise_map.2 ((h.nodup.and (List.pairwise_map.1 h.sorted)).imp_of_mem ?_)
  rintro names others hnames hothers ⟨hne, hle⟩
  refine Std.lt_of_le_of_ne hle fun heq => hne ?_
  exact hlegible names ((h.mem_iff names).1 hnames) others ((h.mem_iff others).1 hothers) heq

end InOrder

theorem ReachesPage.makePath (h : ReachesPage tree dir names) : MakePath names :=
  ⟨ne_nil_of_isPageName h.isPage, fun name hname => (h.isName name hname).1.2⟩

/-! ## The result of a search -/

/-- A search that succeeds has found the pages below the directory. -/
theorem exists_inOrder_of_scanAs (hsound : tree.Sound) (hlists : Lists tree listed)
    (h : scanAs tree listed dir = .ok files) :
    ∃ found, InOrder (ReachesPage tree dir) found ∧ files = found.map (atNames dir) := by
  rw [scanAs] at h
  split at h
  · cases h
  · next here hlocate =>
      by_cases hhere : tree.entry? here = some .directory
      · rw [if_pos hhere] at h
        obtain ⟨pages, hpages, hsorted⟩ := Sequence.bind_eq_ok_iff.1 h
        obtain ⟨found, hfound, hnodup, hmem⟩ :=
          finds_below (depthBound tree) hsound hlists (arrived_nil hlocate hhere) ⟨pages, hpages⟩
        let inOrder : List OsText → List OsText → Bool := fun names names' =>
          decide (readable names ≤ readable names')
        refine ⟨found.mergeSort inOrder, ⟨?_, ?_, ?_⟩, ?_⟩
        · exact (List.mergeSort_perm _ _).nodup_iff.2 hnodup
        · intro names
          rw [List.mem_mergeSort]
          exact hmem names
        · rw [List.map_mergeSort (s := fun a b => decide (a ≤ b)) fun _ _ _ _ => rfl]
          exact List.pairwise_mergeSort' (· ≤ ·) _
        · have hmap : (found.mergeSort inOrder).map (atNames dir)
              = (found.map (atNames dir)).mergeSort
                  fun file other => decide (file.relativePath ≤ other.relativePath) :=
            List.map_mergeSort fun _ _ _ _ => rfl
          rw [hpages] at hfound
          rw [hmap, ← Except.ok.inj hsorted, Except.ok.inj hfound]
          rfl
      · rw [if_neg hhere] at h
        cases h

/-- A search succeeds exactly if it starts at a directory and no link stands in its way. -/
theorem scanAs_ok_iff (hsound : tree.Sound) (hlists : Lists tree listed) :
    (∃ files, scanAs tree listed dir = .ok files) ↔
      tree.isDirectory dir = true ∧ ∀ above name, ¬ IsBadLink tree dir above name := by
  rw [isDirectory, beq_iff_eq, find?, scanAs]
  cases hlocate : tree.locate dir with
  | error e => exact iff_of_false (by simp) (by simp)
  | ok here =>
      simp only
      by_cases hhere : tree.entry? here = some .directory
      · have harrived := arrived_nil hlocate hhere
        have hbelow : (∃ files, scanAs tree listed dir = .ok files) ↔
            ∃ pages, below tree listed dir (depthBound tree) [here] [] here = .ok pages := by
          rw [scanAs, hlocate]
          simp only [if_pos hhere, Sequence.bind_eq_ok_iff]
          constructor
          · rintro ⟨-, pages, hpages, -⟩
            exact ⟨pages, hpages⟩
          · rintro ⟨pages, hpages⟩
            exact ⟨_, pages, hpages, rfl⟩
        rw [and_iff_right hhere]
        rw [scanAs, hlocate] at hbelow
        refine hbelow.trans ⟨fun hok above name => ?_, fun hnone => ?_⟩
        · exact not_isBadLink_of_below (depthBound tree) hsound hlists harrived hok above name
        · have hentered : Entered tree [here] [here] :=
            ⟨List.nodup_singleton here, by simpa using hhere, List.Subset.refl _⟩
          exact exists_below_eq_ok (depthBound tree) hsound hlists hnone harrived hentered
            levels_le_depthBound
      · exact iff_of_false (by simp [hhere]) fun h => hhere h.1

/-- In whatever order directories give their names, the same pages are found, and a reader sees the
same paths. -/
theorem exists_scanAs_perm {listed' : Location → List OsText} (hsound : tree.Sound)
    (hlists : Lists tree listed) (hlists' : Lists tree listed')
    (h : scanAs tree listed dir = .ok files) :
    ∃ files', scanAs tree listed' dir = .ok files' ∧ files'.Perm files ∧
      files'.map relativePath = files.map relativePath ∧
      (Legible (ReachesPage tree dir) → files' = files) := by
  have hplaces := (scanAs_ok_iff hsound hlists).1 ⟨files, h⟩
  obtain ⟨files', h'⟩ := (scanAs_ok_iff hsound hlists').2 hplaces
  obtain ⟨found, hfound, rfl⟩ := exists_inOrder_of_scanAs hsound hlists h
  obtain ⟨found', hfound', rfl⟩ := exists_inOrder_of_scanAs hsound hlists' h'
  refine ⟨_, h', (hfound'.perm hfound).map _, ?_, fun hlegible => ?_⟩
  · rw [List.map_map, List.map_map]
    exact hfound'.map_readable_eq hfound
  · rw [hfound'.unique hfound hlegible]

/-! ## Trees without links -/

/-- These names lead from `here` to the file of a page. -/
def LeadsToPage (tree : FileTree) (here : Location) (names : List OsText) : Prop :=
  (∃ bytes, tree.entry? (here ++ names) = some (.file bytes)) ∧
    isPageName (names.getLast?.getD "") = true

theorem LeadsToPage.ne_nil (h : LeadsToPage tree here names) : names ≠ [] :=
  ne_nil_of_isPageName h.2

theorem LeadsToPage.isName (hsound : tree.Sound) (h : LeadsToPage tree here names) :
    ∀ name ∈ names, IsName name := by
  obtain ⟨⟨bytes, hentry⟩, -⟩ := h
  exact fun name hname => hsound.isName hentry (List.mem_append_right _ hname)

/-- A page has nothing below it. -/
theorem LeadsToPage.eq_of_isPrefix {others : List OsText} (hsound : tree.Sound)
    (h : LeadsToPage tree here names) (h' : LeadsToPage tree here others)
    (hpre : names <+: others) : names = others := by
  obtain ⟨⟨bytes, hentry⟩, -⟩ := h
  obtain ⟨⟨bytes', hentry'⟩, -⟩ := h'
  obtain ⟨rest, rfl⟩ := hpre
  rw [← List.append_assoc] at hentry'
  rw [hsound.eq_nil_of_file hentry hentry', List.append_nil]

/-- Without links, names that lead down lead to the location that they name. -/
theorem reaches_iff (hplain : tree.Plain) (hhere : Reaches tree dir [] here)
    (hdirectory : tree.entry? here = some .directory) (hnames : GoDown names) {loc : Location} :
    Reaches tree dir names loc ↔ loc = here ++ names ∧ ∃ entry, tree.entry? loc = some entry := by
  induction names using List.reverseRecOn generalizing loc with
  | nil =>
      rw [List.append_nil]
      constructor
      · intro hloc
        rw [hloc.unique hhere]
        exact ⟨rfl, _, hdirectory⟩
      · rintro ⟨rfl, -⟩
        exact hhere
  | append_singleton names name ih =>
      have hdown : GoDown names := fun other hother => hnames other (by simp [hother])
      -- Where the last name is found, it leads to what stands there.
      have hstep : ∀ above entry, Reaches tree dir names above →
          tree.entry? (above ++ [name]) = some entry →
          Reaches tree dir (names ++ [name]) (above ++ [name]) := by
        intro above entry habove hentry
        have hupper := hplain.toSound.entry?_of_append hentry (List.cons_ne_nil name [])
        exact habove.step hplain.toSound hupper hentry fun target heq =>
          hplain.entry?_ne_link target (heq ▸ hentry)
      rw [← List.append_assoc]
      constructor
      · intro hloc
        obtain ⟨above, habove, -, hname⟩ :=
          hloc.of_append_singleton hplain.toSound (hnames name (by simp))
        obtain ⟨entry, hentry⟩ := hplain.toSound.mem_names.1 hname
        obtain ⟨rfl, -⟩ := (ih hdown).1 habove
        rw [hloc.unique (hstep _ entry habove hentry)]
        exact ⟨rfl, entry, hentry⟩
      · rintro ⟨rfl, entry, hentry⟩
        have hupper := hplain.toSound.entry?_of_append hentry (List.cons_ne_nil name [])
        exact hstep _ entry ((ih hdown).2 ⟨rfl, _, hupper⟩) hentry

theorem reachesPage_iff (hplain : tree.Plain) (hhere : Reaches tree dir [] here)
    (hdirectory : tree.entry? here = some .directory) :
    ReachesPage tree dir names ↔ LeadsToPage tree here names := by
  constructor
  · intro h
    obtain ⟨loc, bytes, hloc, hfile⟩ := h.file
    obtain ⟨rfl, -⟩ := (reaches_iff hplain hhere hdirectory (goDown_of_isName h.isName)).1 hloc
    exact ⟨⟨bytes, hfile⟩, h.isPage⟩
  · intro h
    obtain ⟨bytes, hfile⟩ := h.1
    have hnames := h.isName hplain.toSound
    refine ⟨hnames, h.2, here ++ names, bytes, ?_, hfile⟩
    exact (reaches_iff hplain hhere hdirectory (goDown_of_isName hnames)).2 ⟨rfl, _, hfile⟩

/-- The names of all pages below `here`, each once, in the order of the paths. -/
def PagesBelow (tree : FileTree) (here : Location) (found : List (List OsText)) : Prop :=
  InOrder (LeadsToPage tree here) found

theorem scan_eq (hplain : tree.Plain)
    (hlocate : tree.locate dir = .ok here) (hhere : tree.entry? here = some .directory) :
    ∃ found, PagesBelow tree here found ∧
      scan tree dir = .ok (found.map (atNames dir)) := by
  have hnone : ∀ above name, ¬ IsBadLink tree dir above name := by
    rintro above name ⟨-, loc, target, -, hlink, -⟩
    exact hplain.entry?_ne_link target hlink
  have hisDirectory : tree.isDirectory dir = true := by
    rw [isDirectory, find?, hlocate, beq_iff_eq]
    exact hhere
  obtain ⟨files, hfiles⟩ := (scanAs_ok_iff hplain.toSound lists_names).2 ⟨hisDirectory, hnone⟩
  obtain ⟨found, hfound, rfl⟩ := exists_inOrder_of_scanAs hplain.toSound lists_names hfiles
  refine ⟨found, ⟨hfound.nodup, fun names => ?_, hfound.sorted⟩, hfiles⟩
  rw [hfound.mem_iff, reachesPage_iff hplain (reaches_nil_of_locate hlocate) hhere]

/-- A search that succeeds has found the pages below the directory. -/
theorem exists_of_scan (hplain : tree.Plain) (h : scan tree dir = .ok files) :
    ∃ here found, (∀ names, ReachesPage tree dir names ↔ LeadsToPage tree here names) ∧
      PagesBelow tree here found ∧ files = found.map (atNames dir) := by
  obtain ⟨hisDirectory, -⟩ := (scanAs_ok_iff hplain.toSound lists_names).1 ⟨files, h⟩
  rw [isDirectory, beq_iff_eq, find?] at hisDirectory
  cases hlocate : tree.locate dir with
  | error e =>
      rw [hlocate] at hisDirectory
      cases hisDirectory
  | ok here =>
      rw [hlocate] at hisDirectory
      obtain ⟨found, hfound, hscan⟩ := scan_eq hplain hlocate hisDirectory
      rw [hscan] at h
      refine ⟨here, found, fun names => ?_, hfound, (Except.ok.inj h).symm⟩
      exact reachesPage_iff hplain (reaches_nil_of_locate hlocate) hisDirectory

/-! ## Exactness -/

/-- Names that make a path of ordinary segments. -/
def AreSegments (names : List OsText) : Prop :=
  names ≠ [] ∧ ∀ name ∈ names, IsSegment name ∧ name ≠ "." ∧ name ≠ ".."

/-- The path of these names below `dir` is that of a file, links followed, and the last of the names
has the extension of a page. -/
def IsPagePath (tree : FileTree) (dir : Path) (names : List OsText) : Prop :=
  (∃ bytes, tree.find? (dir.join (OsText.intercalate slash names)) = some (.file bytes)) ∧
    ∃ stem : OsText, stem ≠ "" ∧
      names.getLast?.getD "" = stem ++ ("." : OsText) ++ (markupExtension : OsText)

theorem isPageName_iff {name : OsText} : isPageName name = true ↔
    ∃ stem : OsText, stem ≠ "" ∧ name = stem ++ ("." : OsText) ++ (markupExtension : OsText) := by
  have hdot : dot ∉ (markupExtension : OsText).bytes := by decide
  rw [isPageName, beq_iff_eq, extension?_eq_some_iff]
  exact exists_congr fun stem => and_congr_right fun _ => and_iff_right hdot

/-- Every name on the way to something is that of an entry. -/
theorem Reaches.exists_entry (hsound : tree.Sound) (hnames : GoDown names) {loc : Location}
    (h : Reaches tree dir names loc) :
    ∀ name ∈ names, ∃ above entry, tree.entry? (above ++ [name]) = some entry := by
  induction names using List.reverseRecOn generalizing loc with
  | nil => exact nofun
  | append_singleton names name ih =>
      obtain ⟨above, habove, -, hname⟩ := h.of_append_singleton hsound (hnames name (by simp))
      intro other hother
      rcases List.mem_append.1 hother with hother | hother
      · exact ih (fun another hanother => hnames another (by simp [hanother])) habove other hother
      · rw [List.mem_singleton.1 hother]
        exact ⟨above, hsound.mem_names.1 hname⟩

theorem Reaches.isName (hsound : tree.Sound) (hnames : GoDown names) {loc : Location}
    (h : Reaches tree dir names loc) : ∀ name ∈ names, IsName name := by
  intro name hname
  obtain ⟨above, entry, hentry⟩ := h.exists_entry hsound hnames name hname
  exact hsound.isName hentry (by simp)

theorem ReachesPage.areSegments (h : ReachesPage tree dir names) : AreSegments names :=
  ⟨h.makePath.1, fun name hname =>
    ⟨(h.isName name hname).1, (h.isName name hname).2.1, (h.isName name hname).2.2.1⟩⟩

theorem reachesPage_iff_isPagePath (hsound : tree.Sound) (hnames : AreSegments names) :
    ReachesPage tree dir names ↔ IsPagePath tree dir names := by
  have hsegments : ∀ name ∈ names, IsSegment name := fun name hname => (hnames.2 name hname).1
  have hlocate : tree.locate (dir.join (OsText.intercalate slash names))
      = tree.walk linkLimit [] (dir.names ++ names) := by
    rw [join_intercalate hsegments hnames.1, locate_joinAll hsegments hnames.1]
  have hfile : (∃ bytes, tree.find? (dir.join (OsText.intercalate slash names))
        = some (.file bytes))
      ↔ ∃ loc bytes, Reaches tree dir names loc ∧ tree.entry? loc = some (.file bytes) := by
    rw [find?, hlocate]
    simp only [Reaches]
    cases tree.walk linkLimit [] (dir.names ++ names) with
    | error e => simp
    | ok loc => simp
  rw [IsPagePath, hfile, ← isPageName_iff]
  constructor
  · exact fun h => ⟨h.file, h.isPage⟩
  · rintro ⟨⟨loc, bytes, hloc, hbytes⟩, hisPage⟩
    exact ⟨hloc.isName hsound fun name hname => (hnames.2 name hname).2, hisPage, loc, bytes, hloc,
      hbytes⟩

/-- The page at these names below `dir`. -/
def ofPath (dir : Path) (names : List OsText) : PageFile :=
  ⟨readable names, dir.join (OsText.intercalate slash names)⟩

theorem atNames_eq_ofPath (hnames : AreSegments names) : atNames dir names = ofPath dir names := by
  rw [atNames, ofPath, join_intercalate (fun name hname => (hnames.2 name hname).1) hnames.1]

/-- The path of a page says which names lead to it. -/
theorem ofPath_inj {others : List OsText} (hnames : AreSegments names)
    (hothers : AreSegments others) (heq : (ofPath dir names).path = (ofPath dir others).path) :
    names = others := by
  rw [← atNames_eq_ofPath hnames, ← atNames_eq_ofPath hothers] at heq
  have hpath := congrArg Path.names heq
  simp only [atNames] at hpath
  rw [names_joinAll fun name hname => (hnames.2 name hname).1,
    names_joinAll fun name hname => (hothers.2 name hname).1] at hpath
  exact List.append_cancel_left hpath

/-- These names make the path of a page. -/
def PageAt (tree : FileTree) (dir : Path) (names : List OsText) : Prop :=
  AreSegments names ∧ IsPagePath tree dir names

theorem reachesPage_iff_pageAt (hsound : tree.Sound) :
    ReachesPage tree dir names ↔ PageAt tree dir names := by
  constructor
  · intro hpage
    exact ⟨hpage.areSegments, (reachesPage_iff_isPagePath hsound hpage.areSegments).1 hpage⟩
  · rintro ⟨hnames, hpage⟩
    exact (reachesPage_iff_isPagePath hsound hnames).2 hpage

/-- A search that succeeds has found the files at the paths of pages. -/
theorem exists_inOrder_pageAt (hsound : tree.Sound) (h : scan tree dir = .ok files) :
    ∃ found, InOrder (PageAt tree dir) found ∧ files = found.map (ofPath dir) := by
  obtain ⟨found, hfound, hfiles⟩ := exists_inOrder_of_scanAs hsound lists_names h
  refine ⟨found, ⟨hfound.nodup, fun names => ?_, hfound.sorted⟩, ?_⟩
  · rw [hfound.mem_iff, reachesPage_iff_pageAt hsound]
  · rw [hfiles]
    exact List.map_congr_left fun names hnames =>
      atNames_eq_ofPath ((hfound.mem_iff names).1 hnames).areSegments

/-- A path is that of a page once, or it is none. -/
theorem InOrder.count_ofPath {found : List (List OsText)}
    (hfound : InOrder (PageAt tree dir) found) (hnames : AreSegments names) :
    (IsPagePath tree dir names → (found.map (ofPath dir)).count (ofPath dir names) = 1) ∧
      (¬ IsPagePath tree dir names →
        ∀ file ∈ found.map (ofPath dir), file.path ≠ (ofPath dir names).path) := by
  constructor
  · intro hpage
    refine List.count_eq_one_of_mem ?_
      (List.mem_map_of_mem ((hfound.mem_iff names).2 ⟨hnames, hpage⟩))
    refine List.Nodup.map_on (fun others hothers others' hothers' heq => ?_) hfound.nodup
    exact ofPath_inj ((hfound.mem_iff others).1 hothers).1 ((hfound.mem_iff others').1 hothers').1
      (congrArg path heq)
  · intro hnot file hfile heq
    obtain ⟨others, hothers, rfl⟩ := List.mem_map.1 hfile
    obtain ⟨hsegments, hpage⟩ := (hfound.mem_iff others).1 hothers
    rw [ofPath_inj hsegments hnames heq] at hpage
    exact hnot hpage

/-! ## Pages whose names are texts -/

/-- The names of all pages are texts. -/
def AllText (tree : FileTree) (dir : Path) : Prop :=
  ∀ names, PageAt tree dir names → ∀ name ∈ names, name.IsText

theorem PageAt.makePath (h : PageAt tree dir names) : MakePath names :=
  ⟨h.1.1, fun name hname => (h.1.2 name hname).1.2⟩

theorem AllText.legible (h : AllText tree dir) : Legible (PageAt tree dir) :=
  fun names hnames others hothers =>
    hnames.makePath.inj hothers.makePath (h names hnames) (h others hothers)

theorem allText_of_entries (hsound : tree.Sound)
    (htext : ∀ e ∈ tree.entries, ∀ name ∈ e.1, name.IsText) : AllText tree dir := by
  intro names hpage name hname
  have hreaches := (reachesPage_iff_pageAt hsound).2 hpage
  obtain ⟨loc, -, hloc, -⟩ := hreaches.file
  obtain ⟨above, entry, hentry⟩ :=
    hloc.exists_entry hsound (goDown_of_isName hreaches.isName) name hname
  exact hsound.isText htext hentry (by simp)

/-- Pages whose names are texts have paths of their own. -/
theorem nodup_of_allText (hsound : tree.Sound) (htext : AllText tree dir)
    (h : scan tree dir = .ok files) : (files.map relativePath).Nodup := by
  obtain ⟨found, hfound, rfl⟩ := exists_inOrder_pageAt hsound h
  rw [List.map_map]
  exact (hfound.strict htext.legible).imp fun hlt => Std.ne_of_lt hlt

/-- The order in which directories give their names makes no difference. -/
theorem scanAs_congr {listed' : Location → List OsText} (hsound : tree.Sound)
    (htext : AllText tree dir) (hlists : Lists tree listed) (hlists' : Lists tree listed')
    (h : scanAs tree listed dir = .ok files) : scanAs tree listed' dir = .ok files := by
  obtain ⟨files', h', -, -, hsame⟩ := exists_scanAs_perm hsound hlists hlists' h
  have hreaches : ReachesPage tree dir = PageAt tree dir :=
    funext fun names => propext (reachesPage_iff_pageAt hsound)
  rw [hreaches] at hsame
  rw [h', hsame htext.legible]

theorem readable_map_ofText (parts : List String) :
    readable (parts.map OsText.ofText) = String.intercalate "/" parts := by
  rw [readable, List.map_map]
  congr 1
  conv_rhs => rw [← List.map_id parts]
  exact List.map_congr_left fun part _ => OsText.text_ofText part

theorem isText_of_mem_map {parts : List String} :
    ∀ name ∈ parts.map OsText.ofText, name.IsText := by
  intro name hname
  obtain ⟨part, -, rfl⟩ := List.mem_map.1 hname
  exact OsText.isText_ofText part

/-- A text is the path of a page once, or it is none. -/
theorem InOrder.count_readable {found : List (List OsText)}
    (hfound : InOrder (PageAt tree dir) found) (htext : AllText tree dir) {parts : List String}
    (hparts : AreSegments (parts.map OsText.ofText)) :
    (IsPagePath tree dir (parts.map OsText.ofText) →
      (found.map readable).count (String.intercalate "/" parts) = 1) ∧
    (¬ IsPagePath tree dir (parts.map OsText.ofText) →
      (found.map readable).count (String.intercalate "/" parts) = 0) := by
  rw [← readable_map_ofText]
  constructor
  · intro hpage
    refine List.count_eq_one_of_mem ?_
      (List.mem_map_of_mem ((hfound.mem_iff _).2 ⟨hparts, hpage⟩))
    exact (hfound.strict htext.legible).imp fun hlt => Std.ne_of_lt hlt
  · intro hnot
    refine List.count_eq_zero_of_not_mem fun hmem => hnot ?_
    obtain ⟨names, hnames, heq⟩ := List.mem_map.1 hmem
    have hpage := (hfound.mem_iff names).1 hnames
    rw [← hpage.makePath.inj ⟨hparts.1, fun name hname => (hparts.2 name hname).1.2⟩
      (htext names hpage) isText_of_mem_map heq]
    exact hpage.2

/-- A page whose names are texts stands where a reader sees it. -/
theorem path_ofPath (htext : ∀ name ∈ names, name.IsText) :
    (ofPath dir names).path = dir.join (ofPath dir names).relativePath := by
  show dir.join (OsText.intercalate slash names) = dir.join (readable names)
  rw [ofText_readable, map_ofText_text htext]

/-- **The pages that are found are exactly the pages that are there.** A search succeeds if it
starts at a directory and no link stands in its way. Then each path of ordinary segments below the
directory is found once if it is that of a page, and not at all otherwise; a page is called what a
reader sees of its path, the pages are in the order of the bytes of these, and the order in which
directories give their names makes no difference to what the reader sees.

If the names of all pages are texts, the reader sees a text once if it is the path of a page and not
at all otherwise, each page is read from the path that he sees, the order is strict, and the order
in which directories give their names makes no difference at all. -/
theorem scan_exact (hsound : tree.Sound) (dir : Path) :
    ((∃ files, scan tree dir = .ok files) ↔
      tree.isDirectory dir = true ∧ ∀ above name, ¬ IsBadLink tree dir above name) ∧
    ∀ files, scan tree dir = .ok files →
      ((∀ names, AreSegments names →
          (IsPagePath tree dir names → files.count (ofPath dir names) = 1) ∧
          (¬ IsPagePath tree dir names → ∀ file ∈ files, file.path ≠ (ofPath dir names).path)) ∧
        (∀ file ∈ files, ∃ names, AreSegments names ∧ file = ofPath dir names) ∧
        (files.map fun file => Text.bytes file.relativePath).Pairwise (· ≤ ·) ∧
        ∀ listed, Lists tree listed → ∃ files', scanAs tree listed dir = .ok files' ∧
          files'.Perm files ∧ files'.map relativePath = files.map relativePath) ∧
      (AllText tree dir →
        (∀ parts : List String, AreSegments (parts.map OsText.ofText) →
          (IsPagePath tree dir (parts.map OsText.ofText) →
            (files.map relativePath).count (String.intercalate "/" parts) = 1) ∧
          (¬ IsPagePath tree dir (parts.map OsText.ofText) →
            (files.map relativePath).count (String.intercalate "/" parts) = 0)) ∧
        (∀ file ∈ files, file.path = dir.join file.relativePath) ∧
        (files.map fun file => Text.bytes file.relativePath).Pairwise (· < ·) ∧
        ∀ listed, Lists tree listed → scanAs tree listed dir = .ok files) := by
  refine ⟨scanAs_ok_iff hsound lists_names, fun files hscan => ?_⟩
  have horders (listed) (hlists : Lists tree listed) :=
    exists_scanAs_perm hsound lists_names hlists hscan
  have hcongr (listed) (hlists : Lists tree listed) (htext : AllText tree dir) :=
    scanAs_congr hsound htext lists_names hlists hscan
  obtain ⟨found, hfound, rfl⟩ := exists_inOrder_pageAt hsound hscan
  have hpageAt (names) (hnames : names ∈ found) := (hfound.mem_iff names).1 hnames
  have hbytes : ((found.map (ofPath dir)).map fun file => Text.bytes file.relativePath)
      = (found.map readable).map Text.bytes := by
    rw [List.map_map, List.map_map]
    rfl
  rw [hbytes]
  have hcount (names : List OsText) (hnames : AreSegments names) :=
    hfound.count_ofPath hnames
  refine ⟨⟨hcount, ?_, ?_, ?_⟩, fun htext => ⟨?_, ?_, ?_, ?_⟩⟩
  · intro file hfile
    obtain ⟨names, hnames, rfl⟩ := List.mem_map.1 hfile
    exact ⟨names, (hpageAt names hnames).1, rfl⟩
  · exact List.pairwise_map.2 (hfound.sorted.imp fun hle => Text.bytes_le_bytes_iff.2 hle)
  · intro listed hlists
    obtain ⟨files', hscan', hperm, hsame, -⟩ := horders listed hlists
    exact ⟨files', hscan', hperm, hsame⟩
  · intro parts hparts
    rw [List.map_map]
    exact hfound.count_readable htext hparts
  · intro file hfile
    obtain ⟨names, hnames, rfl⟩ := List.mem_map.1 hfile
    exact path_ofPath (htext names (hpageAt names hnames))
  · have hstrict := hfound.strict htext.legible
    exact List.pairwise_map.2 (hstrict.imp fun hlt => Text.bytes_lt_bytes_iff.2 hlt)
  · exact fun listed hlists => hcongr listed hlists htext

/-- Pages with links to a page and to a directory beside them, and a file that has no name but an
extension. -/
def linkedTree : FileTree where
  entries := [(["pages"], .directory), (["pages", ".html"], .file "".toUTF8),
    (["pages", "a-b.html"], .link "a/x.html"), (["pages", "a"], .directory),
    (["pages", "a", "x.html"], .file "<p>x</p>".toUTF8), (["pages", "l"], .link "../shared"),
    (["shared"], .directory), (["shared", "y.html"], .file "<p>y</p>".toUTF8),
    (["shared", "z.txt"], .file "z".toUTF8)]

/-- The names in a directory in the order of the tree's entries. -/
def entryOrder (tree : FileTree) (loc : Location) : List OsText :=
  tree.entries.filterMap fun e => childName? loc e.1

theorem lists_entryOrder : Lists tree (entryOrder tree) := fun _ =>
  (List.mergeSort_perm _ _).symm

theorem allText_linkedTree : AllText linkedTree ⟨"pages"⟩ :=
  allText_of_entries (by decide +kernel) (by decide +kernel)

theorem scan_linkedTree : scan linkedTree ⟨"pages"⟩ = .ok [⟨"a-b.html", ⟨"pages/a-b.html"⟩⟩,
    ⟨"a/x.html", ⟨"pages/a/x.html"⟩⟩, ⟨"l/y.html", ⟨"pages/l/y.html"⟩⟩] := by
  refine scanAs_congr (by decide +kernel) allText_linkedTree lists_entryOrder lists_names ?_
  have hlocate : linkedTree.locate ⟨"pages"⟩ = .ok ["pages"] := by decide +kernel
  have hhere : linkedTree.entry? ["pages"] = some .directory := by decide +kernel
  have hbelow : below linkedTree (entryOrder linkedTree) ⟨"pages"⟩ (depthBound linkedTree)
      [["pages"]] [] ["pages"] = .ok [⟨"a-b.html", ⟨"pages/a-b.html"⟩⟩,
        ⟨"a/x.html", ⟨"pages/a/x.html"⟩⟩, ⟨"l/y.html", ⟨"pages/l/y.html"⟩⟩] := by
    decide +kernel
  rw [scanAs, hlocate]
  simp only [hhere, if_true, hbelow]
  -- This order is that of the paths already.
  exact congrArg Except.ok (List.mergeSort_of_pairwise (by decide))

/-- A hyphen stands before the separator in the order of bytes. -/
theorem scan_exact_linkedTree : ∃ files, scan linkedTree ⟨"pages"⟩ = .ok files ∧
    files.map relativePath = ["a-b.html", "a/x.html", "l/y.html"] ∧
    files.count (ofPath ⟨"pages"⟩ ["l", "y.html"]) = 1 ∧
    (files.map relativePath).count "l/y.html" = 1 ∧ (files.map relativePath).count ".html" = 0 ∧
    (∀ file ∈ files, file.path = (Path.mk "pages").join file.relativePath) ∧
    (files.map fun file => Text.bytes file.relativePath).Pairwise (· < ·) ∧
    scanAs linkedTree (entryOrder linkedTree) ⟨"pages"⟩ = .ok files := by
  have hsound : linkedTree.Sound := by decide +kernel
  obtain ⟨⟨hfound, -⟩, htexts⟩ := (scan_exact hsound ⟨"pages"⟩).2 _ scan_linkedTree
  obtain ⟨hcount, hpath, hsorted, hlists⟩ := htexts allText_linkedTree
  have hpage : IsPagePath linkedTree ⟨"pages"⟩ ["l", "y.html"] :=
    ⟨⟨"<p>y</p>".toUTF8, by decide +kernel⟩, "y", by decide, by decide⟩
  have hnoPage : ¬ IsPagePath linkedTree ⟨"pages"⟩ [".html"] := by
    rintro ⟨-, hname⟩
    exact absurd (isPageName_iff.2 hname) (by decide)
  refine ⟨_, scan_linkedTree, rfl, ?_, ?_, ?_, hpath, hsorted, hlists _ lists_entryOrder⟩
  · exact (hfound ["l", "y.html"] ⟨by decide, by decide⟩).1 hpage
  · exact (hcount ["l", "y.html"] ⟨by decide, by decide⟩).1 hpage
  · exact (hcount [".html"] ⟨by decide, by decide⟩).2 hnoPage

/-- Two pages whose names are not UTF-8. -/
def clashingTree : FileTree where
  entries := [(["pages"], .directory),
    (["pages", ⟨[0xFE]⟩ ++ (".html" : OsText)], .file "<p>x</p>".toUTF8),
    (["pages", ⟨[0xFF]⟩ ++ (".html" : OsText)], .file "<p>y</p>".toUTF8)]

/-- The page that is called by a byte. -/
def bytePage (byte : UInt8) : PageFile :=
  ⟨"\ufffd.html", (Path.mk "pages").join (⟨[byte]⟩ ++ (".html" : OsText))⟩

theorem scanAs_clashingTree :
    scanAs clashingTree (entryOrder clashingTree) ⟨"pages"⟩ = .ok [bytePage 0xFE, bytePage 0xFF] ∧
    scanAs clashingTree (fun loc => (entryOrder clashingTree loc).reverse) ⟨"pages"⟩
      = .ok [bytePage 0xFF, bytePage 0xFE] := by
  have hlocate : clashingTree.locate ⟨"pages"⟩ = .ok ["pages"] := by decide +kernel
  have hhere : clashingTree.entry? ["pages"] = some .directory := by decide +kernel
  have hbelow : below clashingTree (entryOrder clashingTree) ⟨"pages"⟩ (depthBound clashingTree)
      [["pages"]] [] ["pages"] = .ok [bytePage 0xFE, bytePage 0xFF] := by
    decide +kernel
  have hreverse : below clashingTree (fun loc => (entryOrder clashingTree loc).reverse) ⟨"pages"⟩
      (depthBound clashingTree) [["pages"]] [] ["pages"]
        = .ok [bytePage 0xFF, bytePage 0xFE] := by
    decide +kernel
  rw [scanAs, scanAs, hlocate]
  simp only [hhere, if_true, hbelow, hreverse]
  exact ⟨congrArg Except.ok (List.mergeSort_of_pairwise (by decide)),
    congrArg Except.ok (List.mergeSort_of_pairwise (by decide))⟩

theorem scan_bytePages :
    scan clashingTree ⟨"pages"⟩ = .ok [bytePage 0xFE, bytePage 0xFF] := by
  have hlocate : clashingTree.locate ⟨"pages"⟩ = .ok ["pages"] := by decide +kernel
  have hhere : clashingTree.entry? ["pages"] = some .directory := by decide +kernel
  have hnames : clashingTree.names ["pages"] = entryOrder clashingTree ["pages"] :=
    List.mergeSort_of_pairwise (by decide)
  have hdepth : depthBound clashingTree = 24 + 1 := rfl
  have hbelow : below clashingTree clashingTree.names ⟨"pages"⟩ (depthBound clashingTree)
      [["pages"]] [] ["pages"] = .ok [bytePage 0xFE, bytePage 0xFF] := by
    rw [hdepth, below, hnames]
    decide +kernel
  rw [scan, scanAs, hlocate]
  simp only [hhere, if_true, hbelow]
  exact congrArg Except.ok (List.mergeSort_of_pairwise (by decide))

/-- A reader sees both pages at one path, which is that of no file, and in no strict order; which of
them comes first depends on the order in which the directory gives their names. -/
theorem scan_clashingTree : ∃ files, scan clashingTree ⟨"pages"⟩ = .ok files ∧
    (files.map relativePath).count "\ufffd.html" = 2 ∧
    ¬ IsPagePath clashingTree ⟨"pages"⟩ ["\ufffd.html"] ∧
    (∀ file ∈ files, file.path ≠ (Path.mk "pages").join file.relativePath) ∧
    ¬ (files.map fun file => Text.bytes file.relativePath).Pairwise (· < ·) ∧
    ∃ listed listed', Lists clashingTree listed ∧ Lists clashingTree listed' ∧
      scanAs clashingTree listed ⟨"pages"⟩ ≠ scanAs clashingTree listed' ⟨"pages"⟩ := by
  obtain ⟨hscan, hreverse⟩ := scanAs_clashingTree
  have hlists : Lists clashingTree (entryOrder clashingTree) := lists_entryOrder
  obtain ⟨files, hfiles, hperm, hpaths, -⟩ :=
    exists_scanAs_perm (by decide +kernel) hlists lists_names hscan
  refine ⟨files, hfiles, ?_, ?_, ?_, ?_, entryOrder clashingTree,
    fun loc => (entryOrder clashingTree loc).reverse, hlists, ?_, ?_⟩
  · rw [hpaths]
    rfl
  · rintro ⟨⟨bytes, hbytes⟩, -⟩
    have hnone : clashingTree.find? ((Path.mk "pages").join
        (OsText.intercalate slash ["\ufffd.html"])) = none := by
      decide +kernel
    rw [hnone] at hbytes
    cases hbytes
  · intro file hfile
    have hdiffer : ∀ file ∈ [bytePage 0xFE, bytePage 0xFF],
        file.path ≠ (Path.mk "pages").join file.relativePath := by
      decide
    exact hdiffer file (hperm.mem_iff.1 hfile)
  · have hbytes : (files.map fun file => Text.bytes file.relativePath)
        = (files.map relativePath).map Text.bytes := by
      rw [List.map_map]
      rfl
    rw [hbytes, hpaths]
    decide
  · exact fun loc => (List.reverse_perm _).trans (hlists loc)
  · rw [hscan, hreverse]
    decide

end SiteCompiler.PageFile
