import SiteCompiler.Page.Discovery
import SiteCompiler.Proofs.FileTree.Sound
import Mathlib.Data.List.Forall2
set_option autoImplicit false

/-! # Searching below a directory

The search for pages goes from a directory to what stands in it, name by name and through links. As
long as it goes on, it is at the place to which the path of its names leads, and knows the
directories that it has come through (`Arrived`). So a search that ends has found every page to which
a path below the directory leads, once (`finds_below`), whatever the order in which directories give
their names.

A search fails at a link that it cannot follow, and at nothing else (`follow_eq_error_iff`,
`exists_below_eq_ok`): every link that it does follow leads to a new directory, so it does not go
deeper than it may.
-/

namespace SiteCompiler.PageFile

open FileTree SiteCompiler.Path

variable {tree : FileTree} {listed : Location → List OsText} {dir : Path} {depth : Nat}
variable {around : List Location} {here loc : Location} {above names rest : List OsText}
variable {name : OsText}

/-! ## Paths below a directory -/

theorem goDown_of_isName (h : ∀ name ∈ names, IsName name) : GoDown names := fun name hname =>
  ⟨(h name hname).2.1, (h name hname).2.2.1⟩

/-- The names lead from `dir` to a location, links followed. -/
def Reaches (tree : FileTree) (dir : Path) (names : List OsText) (loc : Location) : Prop :=
  tree.walk linkLimit [] (dir.names ++ names) = .ok loc

theorem Reaches.unique {loc' : Location} (h : Reaches tree dir names loc)
    (h' : Reaches tree dir names loc') : loc = loc' :=
  Except.ok.inj (h.symm.trans h')

theorem Reaches.step {entry : Entry} (hsound : tree.Sound) (h : Reaches tree dir above here)
    (hhere : tree.entry? here = some .directory)
    (hentry : tree.entry? (here ++ [name]) = some entry) (hlink : ∀ target, entry ≠ .link target) :
    Reaches tree dir (above ++ [name]) (here ++ [name]) := by
  rw [Reaches, ← List.append_assoc]
  exact walk_append_of_entry (hsound.isName hentry (by simp)).2 hhere hentry hlink h

/-- Where names lead somewhere, they lead through a directory that holds the last of them. -/
theorem Reaches.of_append_singleton (hsound : tree.Sound) (hname : name ≠ "." ∧ name ≠ "..")
    (h : Reaches tree dir (above ++ [name]) loc) :
    ∃ here, Reaches tree dir above here ∧ tree.entry? here = some .directory ∧
      name ∈ tree.names here := by
  rw [Reaches, ← List.append_assoc] at h
  obtain ⟨here, hhere, hentry⟩ := endsBeside_walk hname h
  obtain ⟨entry, hentry⟩ := Option.isSome_iff_exists.1 hentry
  have hdirectory := hsound.entry?_of_append hentry (List.cons_ne_nil name [])
  exact ⟨here, hhere, hdirectory, hsound.mem_names.2 ⟨entry, hentry⟩⟩

theorem Reaches.of_append (hsound : tree.Sound) (hrest : GoDown rest) (hne : rest ≠ [])
    (h : Reaches tree dir (above ++ rest) loc) :
    ∃ here, Reaches tree dir above here ∧ tree.entry? here = some .directory := by
  induction rest using List.reverseRecOn generalizing loc with
  | nil => exact absurd rfl hne
  | append_singleton rest name ih =>
      rw [← List.append_assoc] at h
      obtain ⟨here, hhere, hdirectory, -⟩ := h.of_append_singleton hsound (hrest name (by simp))
      by_cases hnil : rest = []
      · rw [hnil, List.append_nil] at hhere
        exact ⟨here, hhere, hdirectory⟩
      · exact ih (fun other hother => hrest other (by simp [hother])) hnil hhere

/-- The first of the names that lead on from a place stands there, and leads to the end or to a
directory. -/
theorem Reaches.exists_first (hsound : tree.Sound) (hhere : Reaches tree dir above here)
    (hnames : GoDown (name :: rest)) (h : Reaches tree dir (above ++ name :: rest) loc) :
    name ∈ tree.names here ∧ ∃ next, Reaches tree dir (above ++ [name]) next ∧
      (rest = [] → next = loc) ∧ (rest ≠ [] → tree.entry? next = some .directory) := by
  obtain ⟨hname, hrest⟩ := goDown_cons.1 hnames
  rw [List.append_cons] at h
  have hnext : ∃ next, Reaches tree dir (above ++ [name]) next ∧ (rest = [] → next = loc) ∧
      (rest ≠ [] → tree.entry? next = some .directory) := by
    by_cases hnil : rest = []
    · rw [hnil, List.append_nil] at h
      exact ⟨loc, h, fun _ => rfl, fun hne => absurd hnil hne⟩
    · obtain ⟨next, hnext, hdirectory⟩ := h.of_append hsound hrest hnil
      exact ⟨next, hnext, fun heq => absurd heq hnil, fun _ => hdirectory⟩
  obtain ⟨next, hreaches, hnext⟩ := hnext
  obtain ⟨here', hhere', -, hmem⟩ := hreaches.of_append_singleton hsound hname
  rw [← hhere.unique hhere'] at hmem
  exact ⟨hmem, next, hreaches, hnext⟩

theorem reaches_nil_of_locate (h : tree.locate dir = .ok here) : Reaches tree dir [] here := by
  rw [locate] at h
  split at h
  · cases h
  · rw [segments_eq] at h
    rw [Reaches, List.append_nil]
    split at h
    · exact walk_of_append_dot h
    · exact h

theorem locate_joinAll (hnames : ∀ name ∈ names, IsSegment name) (hne : names ≠ []) :
    tree.locate (dir.joinAll names) = tree.walk linkLimit [] (dir.names ++ names) := by
  have hparts : (dir.joinAll names).names = dir.names ++ names := names_joinAll hnames
  have hraw : (dir.joinAll names).raw ≠ "" :=
    raw_ne_empty_of_names (by simp [hparts, hne])
  rw [locate, if_neg (by simpa using hraw), segments_eq, endsWithSeparator_joinAll hnames hne,
    if_neg Bool.false_ne_true, hparts]

/-! ## A step of the search -/

/-- The search is at `here`, where the names `above` lead, and has come through `around`. -/
structure Arrived (tree : FileTree) (dir : Path) (around : List Location) (above : List OsText)
    (here : Location) : Prop where
  isName : ∀ name ∈ above, IsName name
  reaches : Reaches tree dir above here
  directory : tree.entry? here = some .directory
  mem_around_iff : ∀ loc, loc ∈ around ↔ ∃ upper, upper <+: above ∧ Reaches tree dir upper loc

/-- The link `name` in the directory to which `above` leads cannot be followed: it leads nowhere, or
back to a directory on the way to it. -/
def IsBadLink (tree : FileTree) (dir : Path) (above : List OsText) (name : OsText) : Prop :=
  (∀ other ∈ above, IsName other) ∧ ∃ here target, Reaches tree dir above here ∧
    tree.entry? (here ++ [name]) = some (.link target) ∧
    ∀ loc, Reaches tree dir (above ++ [name]) loc →
      tree.entry? loc = some .directory ∧ ∃ upper, upper <+: above ∧ Reaches tree dir upper loc

theorem arrived_nil (hlocate : tree.locate dir = .ok here)
    (hhere : tree.entry? here = some .directory) : Arrived tree dir [here] [] here where
  isName := nofun
  reaches := reaches_nil_of_locate hlocate
  directory := hhere
  mem_around_iff := by
    intro loc
    rw [List.mem_singleton]
    constructor
    · rintro rfl
      exact ⟨[], List.prefix_rfl, reaches_nil_of_locate hlocate⟩
    · rintro ⟨upper, hupper, hloc⟩
      rw [List.prefix_nil.1 hupper] at hloc
      exact hloc.unique (reaches_nil_of_locate hlocate)

namespace Arrived

theorem isName_concat (harrived : Arrived tree dir around above here) (hsound : tree.Sound)
    (hname : name ∈ tree.names here) : ∀ other ∈ above ++ [name], IsName other := by
  obtain ⟨entry, hentry⟩ := hsound.mem_names.1 hname
  intro other hother
  rcases List.mem_append.1 hother with hother | hother
  · exact harrived.isName other hother
  · rw [List.mem_singleton.1 hother]
    exact hsound.isName hentry (by simp)

theorem step (harrived : Arrived tree dir around above here) (hsound : tree.Sound)
    (hname : name ∈ tree.names here) (hloc : Reaches tree dir (above ++ [name]) loc)
    (hdirectory : tree.entry? loc = some .directory) :
    Arrived tree dir (loc :: around) (above ++ [name]) loc where
  isName := harrived.isName_concat hsound hname
  reaches := hloc
  directory := hdirectory
  mem_around_iff := by
    intro other
    rw [List.mem_cons, harrived.mem_around_iff]
    constructor
    · rintro (rfl | ⟨upper, hupper, hother⟩)
      · exact ⟨_, List.prefix_rfl, hloc⟩
      · exact ⟨upper, hupper.trans (List.prefix_append _ _), hother⟩
    · rintro ⟨upper, hupper, hother⟩
      rcases List.prefix_concat_iff.1 hupper with rfl | hupper
      · exact Or.inl (hother.unique hloc)
      · exact Or.inr ⟨upper, hupper, hother⟩

/-- A link is followed where its path leads. -/
theorem follow_link (harrived : Arrived tree dir around above here) (hsound : tree.Sound)
    {target : OsText} (hlink : tree.entry? (here ++ [name]) = some (.link target)) :
    (follow tree dir around here (above ++ [name]) name = .ok loc ↔
      Reaches tree dir (above ++ [name]) loc ∧
        ¬ (tree.entry? loc = some .directory ∧ loc ∈ around)) := by
  have hname := hsound.mem_names.2 ⟨_, hlink⟩
  have hlocate : tree.locate (dir.joinAll (above ++ [name]))
      = tree.walk linkLimit [] (dir.names ++ (above ++ [name])) :=
    locate_joinAll (fun other hother => (harrived.isName_concat hsound hname other hother).1)
      (List.append_ne_nil_of_right_ne_nil above (List.cons_ne_nil name []))
  rw [follow, hlink]
  simp only [hlocate, Reaches]
  cases hwalk : tree.walk linkLimit [] (dir.names ++ (above ++ [name])) with
  | error e => simp
  | ok there =>
      simp only [Bool.and_eq_true, beq_iff_eq, List.contains_iff_mem, Except.ok.injEq]
      split
      · next hback =>
          refine iff_of_false nofun ?_
          rintro ⟨rfl, hnot⟩
          exact hnot hback
      · next hnot =>
          constructor
          · rintro heq
            cases heq
            exact ⟨rfl, hnot⟩
          · rintro ⟨rfl, -⟩
            rfl

/-- What is found at a name is what its path leads to. -/
theorem reaches_of_follow (harrived : Arrived tree dir around above here) (hsound : tree.Sound)
    (hname : name ∈ tree.names here)
    (h : follow tree dir around here (above ++ [name]) name = .ok loc) :
    Reaches tree dir (above ++ [name]) loc := by
  obtain ⟨entry, hentry⟩ := hsound.mem_names.1 hname
  by_cases hlink : ∃ target, entry = .link target
  · obtain ⟨target, rfl⟩ := hlink
    exact ((harrived.follow_link hsound hentry).1 h).1
  · have hplain : ∀ target, entry ≠ .link target := fun target heq => hlink ⟨target, heq⟩
    have hnext := harrived.reaches.step hsound harrived.directory hentry hplain
    rw [follow] at h
    split at h
    · next target htarget =>
        rw [hentry] at htarget
        exact absurd (Option.some.inj htarget) (hplain target)
    · rwa [← Except.ok.inj h]

/-- The search does not come to a directory again, unless it goes down to it. -/
theorem eq_or_not_mem_of_follow (harrived : Arrived tree dir around above here)
    (hsound : tree.Sound) (h : follow tree dir around here (above ++ [name]) name = .ok loc)
    (hdirectory : tree.entry? loc = some .directory) : loc = here ++ [name] ∨ loc ∉ around := by
  by_cases hlink : ∃ target, tree.entry? (here ++ [name]) = some (.link target)
  · obtain ⟨target, hlink⟩ := hlink
    exact Or.inr fun hmem => ((harrived.follow_link hsound hlink).1 h).2 ⟨hdirectory, hmem⟩
  · rw [follow] at h
    split at h
    · next target htarget => exact absurd ⟨target, htarget⟩ hlink
    · exact Or.inl (Except.ok.inj h).symm

/-- Only a link that cannot be followed ends the search with an error. -/
theorem follow_eq_error_iff (harrived : Arrived tree dir around above here) (hsound : tree.Sound) :
    (∃ e, follow tree dir around here (above ++ [name]) name = .error e)
      ↔ IsBadLink tree dir above name := by
  have hok : (∃ e, follow tree dir around here (above ++ [name]) name = .error e)
      ↔ ¬ ∃ loc, follow tree dir around here (above ++ [name]) name = .ok loc := by
    cases follow tree dir around here (above ++ [name]) name <;> simp
  rw [hok]
  constructor
  · intro hnone
    by_cases hlink : ∃ target, tree.entry? (here ++ [name]) = some (.link target)
    · obtain ⟨target, hlink⟩ := hlink
      refine ⟨harrived.isName, here, target, harrived.reaches, hlink, fun loc hloc => ?_⟩
      by_contra hnot
      rw [← harrived.mem_around_iff] at hnot
      exact hnone ⟨loc, (harrived.follow_link hsound hlink).2 ⟨hloc, hnot⟩⟩
    · refine absurd ⟨here ++ [name], ?_⟩ hnone
      rw [follow]
      split
      · next target htarget => exact absurd ⟨target, htarget⟩ hlink
      · rfl
  · rintro ⟨-, here', target, hhere', hlink, hback⟩ ⟨loc, hloc⟩
    rw [← harrived.reaches.unique hhere'] at hlink
    obtain ⟨hreaches, hnot⟩ := (harrived.follow_link hsound hlink).1 hloc
    refine hnot ?_
    rw [harrived.mem_around_iff]
    exact hback loc hreaches

end Arrived

/-- What the search finds at one name of the directory at `here`. -/
def foundAt (tree : FileTree) (listed : Location → List OsText) (dir : Path) (depth : Nat)
    (around : List Location) (above : List OsText) (here : Location) (name : OsText) :
    Except ScanError (List PageFile) := do
  let loc ← follow tree dir around here (above ++ [name]) name
  match tree.entry? loc with
  | some .directory => below tree listed dir depth (loc :: around) (above ++ [name]) loc
  | some (.file _) => .ok (ofNames dir (above ++ [name]))
  | _ => .ok []

theorem foundAt_of_follow
    (h : follow tree dir around here (above ++ [name]) name = .ok loc) :
    foundAt tree listed dir depth around above here name =
      match tree.entry? loc with
      | some .directory => below tree listed dir depth (loc :: around) (above ++ [name]) loc
      | some (.file _) => .ok (ofNames dir (above ++ [name]))
      | _ => .ok [] := by
  rw [foundAt, h]
  rfl

theorem below_succ (depth : Nat) (around : List Location) (above : List OsText) (here : Location) :
    below tree listed dir (depth + 1) around above here
      = ((listed here).mapM (foundAt tree listed dir depth around above here)).map List.flatten := by
  rw [below]
  exact Sequence.mapM_bind_pure (fun name => rfl) List.flatten _

theorem below_succ_ok_iff :
    (∃ pages, below tree listed dir (depth + 1) around above here = .ok pages) ↔
      ∀ name ∈ listed here, ∃ pages,
        foundAt tree listed dir depth around above here name = .ok pages := by
  rw [below_succ, ← Sequence.exists_mapM_eq_ok_iff]
  simp only [Sequence.map_eq_ok_iff]
  constructor
  · rintro ⟨-, found, hfound, -⟩
    exact ⟨found, hfound⟩
  · rintro ⟨found, hfound⟩
    exact ⟨_, found, hfound, rfl⟩

/-! ## What a search finds -/

/-- A way to give the names of each directory, in any order. -/
def Lists (tree : FileTree) (listed : Location → List OsText) : Prop :=
  ∀ loc, (listed loc).Perm (tree.names loc)

theorem lists_names : Lists tree tree.names := fun _ => List.Perm.refl _

/-- The page file at these names below `dir`. -/
def atNames (dir : Path) (names : List OsText) : PageFile :=
  ⟨readable names, dir.joinAll names⟩

/-- These names lead from `dir` to the file of a page, links followed. -/
structure ReachesPage (tree : FileTree) (dir : Path) (names : List OsText) : Prop where
  isName : ∀ name ∈ names, IsName name
  isPage : isPageName (names.getLast?.getD "") = true
  file : ∃ loc bytes, Reaches tree dir names loc ∧ tree.entry? loc = some (.file bytes)

/-- The names lead on from where `above` leads to the file of a page, and `name` is the first of
them. -/
def ReachesPageBy (tree : FileTree) (dir : Path) (above : List OsText) (name : OsText)
    (names : List OsText) : Prop :=
  (∃ rest, names = name :: rest) ∧ ReachesPage tree dir (above ++ names)

theorem ne_nil_of_isPageName (h : isPageName (names.getLast?.getD "") = true) : names ≠ [] := by
  rintro rfl
  revert h
  decide

/-- A search below `dir` has found the pages at the names that are wanted, each once. All of them
have the names `above` in front. -/
def Finds (dir : Path) (above : List OsText) (outcome : Except ScanError (List PageFile))
    (wanted : List OsText → Prop) : Prop :=
  ∃ found : List (List OsText),
    outcome = .ok (found.map fun names => atNames dir (above ++ names)) ∧
    found.Nodup ∧ ∀ names, names ∈ found ↔ wanted names

namespace Arrived

theorem exists_first (harrived : Arrived tree dir around above here) (hsound : tree.Sound)
    (hpage : ReachesPage tree dir (above ++ rest)) :
    ∃ name tail loc, rest = name :: tail ∧ name ∈ tree.names here ∧
      Reaches tree dir (above ++ [name]) loc ∧
      (tail = [] → ∃ bytes, tree.entry? loc = some (.file bytes)) ∧
      (tail ≠ [] → tree.entry? loc = some .directory) := by
  obtain ⟨there, bytes, hthere, hfile⟩ := hpage.file
  cases rest with
  | nil =>
      -- The directory itself is no page.
      rw [List.append_nil] at hthere
      rw [← harrived.reaches.unique hthere, harrived.directory] at hfile
      cases hfile
  | cons name tail =>
      have hdown : GoDown (name :: tail) := goDown_of_isName fun other hother =>
        hpage.isName other (List.mem_append_right above hother)
      obtain ⟨hname, loc, hloc, hend, hdirectory⟩ :=
        harrived.reaches.exists_first hsound hdown hthere
      refine ⟨name, tail, loc, rfl, hname, hloc, fun htail => ⟨bytes, ?_⟩, hdirectory⟩
      rw [hend htail, hfile]

/-- The names of a page end at a file, and go on at a directory. -/
theorem cases_of_reachesPageBy (harrived : Arrived tree dir around above here)
    (hsound : tree.Sound) (hloc : Reaches tree dir (above ++ [name]) loc)
    (hpage : ReachesPageBy tree dir above name names) : ∃ rest, names = name :: rest ∧
      (rest = [] → ∃ bytes, tree.entry? loc = some (.file bytes)) ∧
      (rest ≠ [] → tree.entry? loc = some .directory) := by
  obtain ⟨⟨rest, rfl⟩, hpage⟩ := hpage
  obtain ⟨first, tail, next, heq, -, hnext, hends⟩ := harrived.exists_first hsound hpage
  cases heq
  rw [hnext.unique hloc] at hends
  exact ⟨rest, rfl, hends⟩

/-- At a directory the pages in it are found, with its name in front. -/
theorem finds_directory {outcome : Except ScanError (List PageFile)}
    (hbelow : Finds dir (above ++ [name]) outcome
      fun names => ReachesPage tree dir (above ++ [name] ++ names)) :
    Finds dir above outcome (ReachesPageBy tree dir above name) := by
  obtain ⟨found, hfound, hnodup, hmem⟩ := hbelow
  refine ⟨found.map (name :: ·), ?_, hnodup.map List.cons_injective, fun names => ?_⟩
  · rw [hfound, List.map_map]
    refine congrArg Except.ok (List.map_congr_left fun names _ => ?_)
    simp
  · rw [List.mem_map]
    constructor
    · rintro ⟨rest, hrest, rfl⟩
      refine ⟨⟨rest, rfl⟩, ?_⟩
      rw [List.append_cons]
      exact (hmem rest).1 hrest
    · rintro ⟨⟨rest, rfl⟩, hpage⟩
      rw [List.append_cons] at hpage
      exact ⟨rest, (hmem rest).2 hpage, rfl⟩

/-- At a file the page that it is is found, if it is one. -/
theorem finds_file (harrived : Arrived tree dir around above here) (hsound : tree.Sound)
    (hname : name ∈ tree.names here) (hloc : Reaches tree dir (above ++ [name]) loc)
    {bytes : ByteArray} (hfile : tree.entry? loc = some (.file bytes)) :
    Finds dir above (.ok (ofNames dir (above ++ [name]))) (ReachesPageBy tree dir above name) := by
  have hwanted : ∀ names, ReachesPageBy tree dir above name names ↔
      names = [name] ∧ isPageName name = true := by
    intro names
    constructor
    · intro hpage
      obtain ⟨rest, rfl, -, hgoOn⟩ := harrived.cases_of_reachesPageBy hsound hloc hpage
      by_cases hrest : rest = []
      · subst hrest
        exact ⟨rfl, by simpa using hpage.2.isPage⟩
      · rw [hfile] at hgoOn
        cases hgoOn hrest
    · rintro ⟨rfl, hisPage⟩
      exact ⟨⟨[], rfl⟩, harrived.isName_concat hsound hname, by simpa using hisPage,
        loc, bytes, hloc, hfile⟩
  rw [ofNames, List.getLast?_concat, Option.getD_some]
  by_cases hisPage : isPageName name = true
  · refine ⟨[[name]], by simp [hisPage, atNames], List.nodup_singleton _, fun names => ?_⟩
    rw [hwanted, and_iff_left hisPage, List.mem_singleton]
  · refine ⟨[], by simp [hisPage], List.nodup_nil, fun names => ?_⟩
    rw [hwanted]
    exact iff_of_false List.not_mem_nil fun h => hisPage h.2

/-- At anything else nothing is found. -/
theorem finds_other (harrived : Arrived tree dir around above here) (hsound : tree.Sound)
    (hloc : Reaches tree dir (above ++ [name]) loc)
    (hdirectory : tree.entry? loc ≠ some .directory)
    (hfile : ∀ bytes, tree.entry? loc ≠ some (.file bytes)) :
    Finds dir above (.ok []) (ReachesPageBy tree dir above name) := by
  refine ⟨[], rfl, List.nodup_nil, fun names => iff_of_false List.not_mem_nil fun hpage => ?_⟩
  obtain ⟨rest, -, hend, hgoOn⟩ := harrived.cases_of_reachesPageBy hsound hloc hpage
  by_cases hrest : rest = []
  · obtain ⟨bytes, hbytes⟩ := hend hrest
    exact hfile bytes hbytes
  · exact hdirectory (hgoOn hrest)

/-- At a name the pages with this name in front are found, if those below it are. -/
theorem finds_foundAt (harrived : Arrived tree dir around above here) (hsound : tree.Sound)
    (hname : name ∈ tree.names here) {pages : List PageFile}
    (hok : foundAt tree listed dir depth around above here name = .ok pages)
    (hbelow : ∀ loc, Arrived tree dir (loc :: around) (above ++ [name]) loc →
      (∃ pages, below tree listed dir depth (loc :: around) (above ++ [name]) loc = .ok pages) →
      Finds dir (above ++ [name]) (below tree listed dir depth (loc :: around) (above ++ [name]) loc)
        fun names => ReachesPage tree dir (above ++ [name] ++ names)) :
    Finds dir above (foundAt tree listed dir depth around above here name)
      (ReachesPageBy tree dir above name) := by
  obtain ⟨loc, hfollow, -⟩ := Sequence.bind_eq_ok_iff.1 hok
  have hloc := harrived.reaches_of_follow hsound hname hfollow
  rw [foundAt_of_follow hfollow] at hok ⊢
  split at hok
  · next hdirectory =>
      exact finds_directory (hbelow loc (harrived.step hsound hname hloc hdirectory) ⟨pages, hok⟩)
  · next bytes hfile => exact harrived.finds_file hsound hname hloc hfile
  · next hdirectory hfile => exact harrived.finds_other hsound hloc hdirectory hfile

end Arrived

/-- A search that ends has found every page below `here`, once. -/
theorem finds_below (depth : Nat) (hsound : tree.Sound) (hlists : Lists tree listed)
    (harrived : Arrived tree dir around above here)
    (hok : ∃ pages, below tree listed dir depth around above here = .ok pages) :
    Finds dir above (below tree listed dir depth around above here)
      fun names => ReachesPage tree dir (above ++ names) := by
  induction depth generalizing around above here with
  | zero =>
      obtain ⟨pages, hpages⟩ := hok
      cases hpages
  | succ depth ih =>
      have hstep : ∀ name ∈ listed here,
          Finds dir above (foundAt tree listed dir depth around above here name)
            (ReachesPageBy tree dir above name) := by
        intro name hname
        obtain ⟨pages, hpages⟩ := below_succ_ok_iff.1 hok name hname
        exact harrived.finds_foundAt hsound ((hlists here).mem_iff.1 hname) hpages
          fun loc hloc hbelow => ih hloc hbelow
      choose! found hfound hnodup hmem using hstep
      refine ⟨(listed here).flatMap found, ?_, ?_, ?_⟩
      · have hmapM := Sequence.mapM_eq_ok_iff.2 ((List.forall₂_map_right_iff
          (f := fun name => (found name).map fun names => atNames dir (above ++ names))).2
            (List.forall₂_same.2 hfound))
        rw [below_succ, hmapM, List.map_flatMap, List.flatMap_def]
        rfl
      · -- What is found at two names differs in the first of its names.
        refine List.nodup_flatMap.2 ⟨hnodup, ?_⟩
        refine ((hlists here).nodup_iff.2 (hsound.nodup_names here)).imp_of_mem ?_
        intro name other hname hother hne names hnames hnames'
        obtain ⟨⟨rest, rfl⟩, -⟩ := (hmem name hname names).1 hnames
        obtain ⟨⟨rest', heq⟩, -⟩ := (hmem other hother _).1 hnames'
        exact hne (List.cons.inj heq).1
      · intro names
        rw [List.mem_flatMap]
        constructor
        · rintro ⟨name, hname, hnames⟩
          exact ((hmem name hname names).1 hnames).2
        · intro hpage
          obtain ⟨name, rest, -, rfl, hname, -⟩ := harrived.exists_first hsound hpage
          have hlisted := (hlists here).mem_iff.2 hname
          exact ⟨name, hlisted, (hmem name hlisted _).2 ⟨⟨rest, rfl⟩, hpage⟩⟩

/-! ## When a search fails -/

/-- A search that ends has met no link that it could not follow. -/
theorem not_isBadLink_of_below (depth : Nat) (hsound : tree.Sound) (hlists : Lists tree listed)
    (harrived : Arrived tree dir around above here)
    (hok : ∃ pages, below tree listed dir depth around above here = .ok pages)
    (rest : List OsText) (name : OsText) : ¬ IsBadLink tree dir (above ++ rest) name := by
  induction depth generalizing around above here rest with
  | zero =>
      obtain ⟨pages, hpages⟩ := hok
      cases hpages
  | succ depth ih =>
      rintro hbad
      obtain ⟨hisName, there, target, hthere, hlink, -⟩ := id hbad
      cases rest with
      | nil =>
          rw [List.append_nil] at hbad hthere
          rw [← harrived.reaches.unique hthere] at hlink
          have hname := (hlists here).mem_iff.2 (hsound.mem_names.2 ⟨_, hlink⟩)
          obtain ⟨pages, hpages⟩ := below_succ_ok_iff.1 hok name hname
          obtain ⟨loc, hloc, -⟩ := Sequence.bind_eq_ok_iff.1 hpages
          obtain ⟨e, he⟩ := (harrived.follow_eq_error_iff hsound).2 hbad
          rw [hloc] at he
          cases he
      | cons first rest =>
          have hdown : GoDown (first :: rest) := goDown_of_isName fun other hother =>
            hisName other (List.mem_append_right above hother)
          obtain ⟨hfirst, loc, hloc, hend, hgoOn⟩ :=
            harrived.reaches.exists_first hsound hdown hthere
          -- The link stands in a directory, at the end of the way or further down.
          have hdirectory : tree.entry? loc = some .directory := by
            by_cases hrest : rest = []
            · rw [hend hrest, hsound.entry?_of_append hlink (List.cons_ne_nil name [])]
            · exact hgoOn hrest
          obtain ⟨pages, hpages⟩ := below_succ_ok_iff.1 hok first ((hlists here).mem_iff.2 hfirst)
          obtain ⟨next, hnext, hbelow⟩ := Sequence.bind_eq_ok_iff.1 hpages
          obtain rfl := (harrived.reaches_of_follow hsound hfirst hnext).unique hloc
          rw [hdirectory] at hbelow
          rw [List.append_cons] at hbad
          exact ih (harrived.step hsound hfirst hloc hdirectory) ⟨pages, hbelow⟩ rest hbad

/-- There are no more directories than entries, but for the root. -/
theorem length_le_of_directories (hsound : tree.Sound) {locs : List Location} (hnodup : locs.Nodup)
    (h : ∀ loc ∈ locs, tree.entry? loc = some .directory) :
    locs.length ≤ tree.entries.length + 1 := by
  have hsubset : locs ⊆ [] :: tree.entries.map Prod.fst := by
    intro loc hloc
    by_cases hne : loc = []
    · rw [hne]
      exact List.mem_cons_self
    · have hmem := (hsound.entry?_eq_some_iff hne).1 (h loc hloc)
      exact List.mem_cons_of_mem _ (List.mem_map_of_mem hmem)
  have hlength := (hnodup.subperm hsubset).length_le
  simpa using hlength

/-- Different directories among those that the search has come through. -/
structure Entered (tree : FileTree) (around entered : List Location) : Prop where
  nodup : entered.Nodup
  directory : ∀ loc ∈ entered, tree.entry? loc = some .directory
  subset : entered ⊆ around

theorem Entered.cons {entered : List Location} (h : Entered tree around entered)
    (hdirectory : tree.entry? loc = some .directory) (hnew : loc ∉ around) :
    Entered tree (loc :: around) (loc :: entered) where
  nodup := List.nodup_cons.2 ⟨fun hmem => hnew (h.subset hmem), h.nodup⟩
  directory := List.forall_mem_cons.2 ⟨hdirectory, h.directory⟩
  subset := List.cons_subset_cons loc h.subset

/-- Enough levels for a search that has come through `entered` directories by links: it can come to
each of the others once, and go down from there as far as the tree is deep. -/
def levels (tree : FileTree) (entered : List Location) (here : Location) : Nat :=
  (tree.entries.length + 1 - entered.length) * (tree.entries.length + 2)
    + (tree.entries.length + 1 - here.length)

theorem levels_down (entered : List Location) (name : OsText)
    (h : here.length < tree.entries.length + 1) :
    levels tree entered (here ++ [name]) + 1 = levels tree entered here := by
  simp only [levels, List.length_append, List.length_singleton]
  omega

theorem levels_cons_lt {entered : List Location} (loc : Location)
    (h : entered.length < tree.entries.length + 1)
    (hhere : here.length < tree.entries.length + 1) :
    levels tree (loc :: entered) loc < levels tree entered here := by
  have hone : tree.entries.length + 1 - entered.length
      = (tree.entries.length + 1 - (loc :: entered).length) + 1 := by
    rw [List.length_cons]
    omega
  simp only [levels]
  rw [hone, Nat.add_mul, Nat.one_mul]
  omega

theorem levels_le_depthBound : levels tree [here] here ≤ depthBound tree := by
  have hbound : depthBound tree = tree.entries.length * (tree.entries.length + 2)
      + 2 * (tree.entries.length + 2) := by
    rw [depthBound, Nat.add_mul]
  simp only [levels, List.length_singleton, Nat.add_sub_cancel, hbound]
  omega

/-- Where no link stands in the way, a search that may go deep enough ends. -/
theorem exists_below_eq_ok (depth : Nat) (hsound : tree.Sound) (hlists : Lists tree listed)
    (hnone : ∀ above name, ¬ IsBadLink tree dir above name)
    (harrived : Arrived tree dir around above here) {entered : List Location}
    (hentered : Entered tree around entered) (hdepth : levels tree entered here ≤ depth) :
    ∃ pages, below tree listed dir depth around above here = .ok pages := by
  induction depth generalizing around above here entered with
  | zero =>
      have hlength := hsound.length_le harrived.directory
      rw [levels] at hdepth
      omega
  | succ depth ih =>
      rw [below_succ_ok_iff]
      intro name hlisted
      have hname := (hlists here).mem_iff.1 hlisted
      cases hfollow : follow tree dir around here (above ++ [name]) name with
      | error e =>
          exact absurd ((harrived.follow_eq_error_iff hsound).1 ⟨e, hfollow⟩) (hnone above name)
      | ok loc =>
          have hloc := harrived.reaches_of_follow hsound hname hfollow
          rw [foundAt_of_follow hfollow]
          split
          · next hdirectory =>
              have hnext := harrived.step hsound hname hloc hdirectory
              have hhere := Nat.lt_succ_of_le (hsound.length_le harrived.directory)
              rcases harrived.eq_or_not_mem_of_follow hsound hfollow hdirectory with rfl | hnew
              · have hdown := levels_down entered name hhere
                refine ih hnext ⟨hentered.nodup, hentered.directory, ?_⟩ (by omega)
                exact fun other hother => List.mem_cons_of_mem _ (hentered.subset hother)
              · have hmore := hentered.cons hdirectory hnew
                have hfew := length_le_of_directories hsound hmore.nodup hmore.directory
                have hless := levels_cons_lt loc hfew hhere
                exact ih hnext hmore (by omega)
          · exact ⟨_, rfl⟩
          · exact ⟨_, rfl⟩

end SiteCompiler.PageFile
