import SiteCompiler.Proofs.FileTree.Sound
set_option autoImplicit false

/-! # Going down a tree without links

Without links, and without `.` and `..` on the way, a walk ends where its names say, or nowhere:
a path leads to the location of its names exactly if something stands there
(`Plain.locate_eq_ok_iff`).
-/

namespace SiteCompiler.FileTree

open SiteCompiler.Path (GoDown goDown_cons)

variable {tree : FileTree} {here loc : Location} {names rest : List OsText} {p : Path}

theorem walkVia_dot {follow : Location → List OsText → Except FileError Location} :
    tree.walkVia follow here [OsText.ofText "."] = .ok here := by
  rw [walkVia, if_pos rfl, walkVia]

/-- One step down. -/
theorem walkVia_cons_of_entry {follow : Location → List OsText → Except FileError Location}
    (hsound : tree.Sound) {name : OsText} (hname : name ≠ "." ∧ name ≠ "..") {entry : Entry}
    (hentry : tree.entry? (here ++ [name]) = some entry) (hlink : entry.isLink = false) :
    tree.walkVia follow here (name :: rest)
      = if entry = .directory then tree.walkVia follow (here ++ [name]) rest
        else if rest = [] then .ok (here ++ [name]) else .error .notADirectory := by
  have hname' : IsName name := hsound.isName hentry (by simp)
  obtain ⟨-, -, -, hlength, hnul⟩ := hname'
  rw [walkVia, if_neg hname.1, if_neg hname.2, if_neg (Nat.not_lt.2 hlength), hnul,
    if_neg Bool.false_ne_true, hentry]
  cases entry with
  | file bytes => rfl
  | link target => cases hlink
  | directory => rfl

/-- A walk along names that lead down ends at their location, if it ends. A `.` behind them asks
for a directory. -/
theorem Plain.walkVia_eq_ok_iff {follow : Location → List OsText → Except FileError Location}
    (hplain : tree.Plain) (hnames : GoDown names) (hrest : rest = [] ∨ rest = [OsText.ofText "."])
    (hhere : tree.entry? here = some .directory) :
    tree.walkVia follow here (names ++ rest) = .ok loc ↔
      loc = here ++ names ∧ ∃ entry, tree.entry? loc = some entry ∧
        (rest ≠ [] → entry = .directory) := by
  induction names generalizing here with
  | nil =>
      have hwalk : tree.walkVia follow here rest = .ok here := by
        rcases hrest with rfl | rfl
        · rw [walkVia]
        · exact walkVia_dot
      rw [List.nil_append, List.append_nil, hwalk, Except.ok.injEq]
      constructor
      · rintro rfl
        exact ⟨rfl, .directory, hhere, fun _ => rfl⟩
      · rintro ⟨rfl, -⟩
        rfl
  | cons name names ih =>
      obtain ⟨hname, hnames⟩ := goDown_cons.1 hnames
      have hlocation : here ++ name :: names = here ++ [name] ++ names := by simp
      rw [List.cons_append, hlocation]
      rcases hplain.cases (here ++ [name]) with hentry | hentry | ⟨bytes, hentry⟩
      · -- Nothing is there, and so nothing below.
        have hnone := hplain.entry?_append_of_none hentry names
        refine iff_of_false ?_ ?_
        · rw [walkVia, if_neg hname.1, if_neg hname.2]
          split
          · simp
          · split
            · simp
            · rw [hentry]
              simp
        · rintro ⟨rfl, entry, hsome, -⟩
          rw [hnone] at hsome
          cases hsome
      · rw [walkVia_cons_of_entry hplain.toSound hname hentry rfl, if_pos rfl]
        exact ih hnames hentry
      · -- A file is there: the walk ends, or it cannot go on.
        rw [walkVia_cons_of_entry hplain.toSound hname hentry rfl, if_neg (by simp)]
        by_cases hend : names ++ rest = []
        · obtain ⟨rfl, rfl⟩ := List.append_eq_nil_iff.1 hend
          rw [if_pos hend, List.append_nil, Except.ok.injEq]
          constructor
          · rintro rfl
            exact ⟨rfl, _, hentry, fun h => absurd rfl h⟩
          · rintro ⟨rfl, -⟩
            rfl
        · rw [if_neg hend]
          refine iff_of_false (by simp) ?_
          rintro ⟨rfl, entry, hsome, hdirectory⟩
          obtain rfl := hplain.eq_nil_of_file hentry hsome
          rw [List.append_nil, hentry] at hsome
          cases hsome
          cases hdirectory hend

theorem Plain.walk_eq_ok_iff {links : Nat} (hplain : tree.Plain) (hnames : GoDown names)
    (hrest : rest = [] ∨ rest = [OsText.ofText "."]) (hhere : tree.entry? here = some .directory) :
    tree.walk links here (names ++ rest) = .ok loc ↔
      loc = here ++ names ∧ ∃ entry, tree.entry? loc = some entry ∧
        (rest ≠ [] → entry = .directory) := by
  cases links with
  | zero =>
      rw [walk]
      exact hplain.walkVia_eq_ok_iff hnames hrest hhere
  | succ links =>
      rw [walk]
      exact hplain.walkVia_eq_ok_iff hnames hrest hhere

theorem Plain.walk_names_eq_ok_iff {links : Nat} (hplain : tree.Plain) (hnames : GoDown names) :
    tree.walk links [] names = .ok loc ↔ loc = names ∧ ∃ entry, tree.entry? loc = some entry := by
  have hnil : ([] : List OsText) = [] ∨ ([] : List OsText) = [OsText.ofText "."] := Or.inl rfl
  rw [← List.append_nil names, hplain.walk_eq_ok_iff hnames hnil entry?_nil, List.append_nil]
  simp

/-! ## Where a path leads -/

theorem Plain.locate_eq_ok_iff (hplain : tree.Plain) (hp : p.IsPlain) :
    tree.locate p = .ok loc ↔ p.raw ≠ "" ∧ loc = p.names ∧ ∃ entry, tree.entry? loc = some entry ∧
      (Path.endsWithSeparator p.raw = true → entry = .directory) := by
  rw [locate]
  by_cases hempty : p.raw = ""
  · rw [if_pos (by simp [hempty])]
    exact iff_of_false (by simp) fun h => h.1 hempty
  · rw [if_neg (by simpa using hempty), Path.segments_eq, and_iff_right hempty]
    by_cases hends : Path.endsWithSeparator p.raw = true
    · rw [if_pos hends, hplain.walk_eq_ok_iff hp (Or.inr rfl) entry?_nil, List.nil_append]
      simp [hends]
    · rw [if_neg hends, hplain.walk_names_eq_ok_iff hp]
      simp [hends]

theorem Plain.isDirectory_iff (hplain : tree.Plain) (hp : p.IsPlain) :
    tree.isDirectory p = true ↔ p.raw ≠ "" ∧ tree.entry? p.names = some .directory := by
  rw [isDirectory, beq_iff_eq, find?]
  constructor
  · intro h
    split at h
    · next loc hloc =>
        obtain ⟨hne, rfl, -⟩ := (hplain.locate_eq_ok_iff hp).1 hloc
        exact ⟨hne, h⟩
    · cases h
  · rintro ⟨hne, hentry⟩
    rw [(hplain.locate_eq_ok_iff hp).2 ⟨hne, rfl, .directory, hentry, fun _ => rfl⟩]
    exact hentry

/-- A path names what stands at the location of its names. -/
theorem Plain.find?_eq (hplain : tree.Plain) (hp : p.IsPlain) (hne : p.raw ≠ "")
    (hends : Path.endsWithSeparator p.raw = false) : tree.find? p = tree.entry? p.names := by
  cases hentry : tree.entry? p.names with
  | none =>
      rw [find?]
      split
      · next loc hloc =>
          obtain ⟨-, rfl, entry, hsome, -⟩ := (hplain.locate_eq_ok_iff hp).1 hloc
          rw [hentry] at hsome
          cases hsome
      · rfl
  | some entry =>
      have hlocate : tree.locate p = .ok p.names :=
        (hplain.locate_eq_ok_iff hp).2
          ⟨hne, rfl, entry, hentry, fun h => by rw [hends] at h; cases h⟩
      rw [find?, hlocate]
      exact hentry

theorem Plain.pathExists_of_directory (hplain : tree.Plain) (hp : p.IsPlain) (hne : p.raw ≠ "")
    (hentry : tree.entry? p.names = some .directory) : tree.pathExists p = true := by
  rw [pathExists, find?,
    (hplain.locate_eq_ok_iff hp).2 ⟨hne, rfl, .directory, hentry, fun _ => rfl⟩]
  simp only [hentry]
  rfl

/-- Where directories are missing, but no file is in the way, a walk finds nothing. -/
theorem Plain.walk_eq_notFound {links : Nat} (hplain : tree.Plain) (hnames : GoDown names)
    (hordinary : ∀ name ∈ names, IsOrdinary name)
    (hhere : tree.entry? here = some .directory)
    (hway : ∀ above, above <+: names → ∀ bytes, tree.entry? (here ++ above) ≠ some (.file bytes))
    (hnone : tree.entry? (here ++ names) = none) :
    tree.walk links here names = .error .notFound := by
  have hvia (follow : Location → List OsText → Except FileError Location) :
      tree.walkVia follow here names = .error .notFound := by
    induction names generalizing here with
    | nil =>
        rw [List.append_nil, hhere] at hnone
        cases hnone
    | cons name names ih =>
        obtain ⟨hname, hnames⟩ := goDown_cons.1 hnames
        obtain ⟨-, -, hlength, hnul⟩ := hordinary name List.mem_cons_self
        rcases hplain.cases (here ++ [name]) with hentry | hentry | ⟨bytes, hentry⟩
        · rw [walkVia, if_neg hname.1, if_neg hname.2, if_neg (Nat.not_lt.2 hlength), hnul,
            if_neg Bool.false_ne_true, hentry]
        · rw [walkVia_cons_of_entry hplain.toSound hname hentry rfl, if_pos rfl]
          refine ih hnames (fun other hother => hordinary other (List.mem_cons_of_mem name hother))
            hentry ?_ (by simpa using hnone)
          intro above habove bytes
          have hlocation : here ++ [name] ++ above = here ++ name :: above := by simp
          rw [hlocation]
          exact hway _ (List.cons_prefix_cons.2 ⟨rfl, habove⟩) bytes
        · exact absurd hentry (hway [name] (by simp) bytes)
  cases links with
  | zero => exact hvia _
  | succ links => exact hvia _

end SiteCompiler.FileTree
