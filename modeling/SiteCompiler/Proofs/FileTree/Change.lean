import SiteCompiler.FileTree.Change
import SiteCompiler.Proofs.FileTree.Descent
import Mathlib.Data.List.Infix
set_option autoImplicit false

/-! # What writing and making directories change

Both operations bring entries to the tree and take none away: what stood somewhere still stands
there, a directory as a directory and a file as a file, and whatever is new was brought
(`ChangedBy`). Making directories brings the missing directories on the way, also when it fails
half-way (`Plain.makeDirectories_changedBy`); it succeeds where no file is in the way
(`Plain.makeDirectories_eq_ok`). Writing brings one file, to a directory that exists
(`Plain.writeText_eq_ok_iff`).
-/

namespace SiteCompiler.FileTree

open SiteCompiler.Path (GoDown IsSegment)

/-- One tree has come out of another by bringing entries. -/
structure ChangedBy (brought : Location → Entry → Prop) (tree changed : FileTree) : Prop where
  plain : changed.Plain
  stays : ∀ loc entry, tree.entry? loc = some entry →
    ∃ now, changed.entry? loc = some now ∧ (now = .directory ↔ entry = .directory)
  origin : ∀ loc entry, changed.entry? loc = some entry →
    tree.entry? loc = some entry ∨ brought loc entry

variable {brought brought' : Location → Entry → Prop} {tree changed later : FileTree}
  {loc dir : Location} {name : OsText} {p : Path}

namespace ChangedBy

theorem refl (hplain : tree.Plain) : ChangedBy brought tree tree where
  plain := hplain
  stays := fun _ entry h => ⟨entry, h, Iff.rfl⟩
  origin := fun _ _ h => Or.inl h

theorem mono (h : ChangedBy brought tree changed)
    (hmono : ∀ loc entry, brought loc entry → brought' loc entry) :
    ChangedBy brought' tree changed where
  plain := h.plain
  stays := h.stays
  origin := fun loc entry hentry => (h.origin loc entry hentry).imp_right (hmono loc entry)

theorem trans (h : ChangedBy brought tree changed) (h' : ChangedBy brought changed later) :
    ChangedBy brought tree later where
  plain := h'.plain
  stays := by
    intro loc entry hentry
    obtain ⟨now, hnow, hkind⟩ := h.stays loc entry hentry
    obtain ⟨then', hthen, hkind'⟩ := h'.stays loc now hnow
    exact ⟨then', hthen, hkind'.trans hkind⟩
  origin := by
    intro loc entry hentry
    rcases h'.origin loc entry hentry with hbefore | hbrought
    · exact h.origin loc entry hbefore
    · exact Or.inr hbrought

/-- What stands somewhere stays as it is unless another entry of its kind is brought there. -/
theorem keeps (h : ChangedBy brought tree changed) {entry : Entry}
    (hentry : tree.entry? loc = some entry)
    (hsame : ∀ now, brought loc now → (now = .directory ↔ entry = .directory) → now = entry) :
    changed.entry? loc = some entry := by
  obtain ⟨now, hnow, hkind⟩ := h.stays loc entry hentry
  rw [hnow]
  rcases h.origin loc now hnow with hbefore | hbrought
  · rw [hentry] at hbefore
    exact hbefore.symm
  · rw [hsame now hbrought hkind]

/-- Where nothing is brought, nothing changes. -/
theorem entry?_eq (h : ChangedBy brought tree changed) (hno : ∀ entry, ¬ brought loc entry) :
    changed.entry? loc = tree.entry? loc := by
  cases hentry : tree.entry? loc with
  | some entry => exact h.keeps hentry fun now hnow => absurd hnow (hno now)
  | none =>
      cases hnow : changed.entry? loc with
      | none => rfl
      | some now =>
          rcases h.origin loc now hnow with hbefore | hbrought
          · rw [hentry] at hbefore
            cases hbefore
          · exact absurd hbrought (hno now)

theorem directory (h : ChangedBy brought tree changed)
    (hentry : tree.entry? loc = some .directory) : changed.entry? loc = some .directory :=
  h.keeps hentry fun _ _ hkind => hkind.2 rfl

/-- A file stays as it is unless another one is brought to its place. -/
theorem file (h : ChangedBy brought tree changed) {bytes : ByteArray}
    (hentry : tree.entry? loc = some (.file bytes))
    (hsame : ∀ other, brought loc (.file other) → other = bytes) :
    changed.entry? loc = some (.file bytes) := by
  obtain ⟨now, hnow, hkind⟩ := h.stays loc _ hentry
  cases now with
  | file other =>
      rw [hnow]
      rcases h.origin loc _ hnow with hbefore | hbrought
      · rw [hentry] at hbefore
        exact hbefore.symm
      · rw [hsame other hbrought]
  | link target => exact absurd hnow (h.plain.entry?_ne_link target)
  | directory => cases hkind.1 rfl

/-- Where no file is brought, there are the files that were there before. -/
theorem file_iff (h : ChangedBy brought tree changed)
    (hno : ∀ bytes, ¬ brought loc (.file bytes)) {bytes : ByteArray} :
    changed.entry? loc = some (.file bytes) ↔ tree.entry? loc = some (.file bytes) := by
  constructor
  · exact fun hentry => (h.origin loc _ hentry).resolve_right (hno bytes)
  · exact fun hentry => h.file hentry fun other hbrought => absurd hbrought (hno other)

/-- Bringing one entry to a directory, in place of one of its kind. -/
theorem put (hplain : tree.Plain) {entry : Entry} (hname : IsName name)
    (hdir : tree.entry? dir = some .directory) (hlink : entry.isLink = false)
    (hkind : ∀ old, tree.entry? (dir ++ [name]) = some old →
      (entry = .directory ↔ old = .directory))
    (hbrought : brought (dir ++ [name]) entry) :
    ChangedBy brought tree (tree.put (dir ++ [name]) entry) where
  plain := by
    refine hplain.put hname hdir hlink ?_
    by_cases hdirectory : tree.entry? (dir ++ [name]) = some .directory
    · exact Or.inl ((hkind _ hdirectory).2 rfl)
    · exact Or.inr hdirectory
  stays := by
    intro loc old hold
    rw [entry?_put (by simp)]
    by_cases hloc : loc = dir ++ [name]
    · rw [if_pos hloc]
      rw [hloc] at hold
      exact ⟨entry, rfl, hkind old hold⟩
    · rw [if_neg hloc]
      exact ⟨old, hold, Iff.rfl⟩
  origin := by
    intro loc now hnow
    rw [entry?_put (by simp)] at hnow
    by_cases hloc : loc = dir ++ [name]
    · rw [if_pos hloc] at hnow
      rw [hloc, ← Option.some.inj hnow]
      exact Or.inr hbrought
    · rw [if_neg hloc] at hnow
      exact Or.inl hnow

end ChangedBy

/-! ## The directory in which a name stands -/

theorem Plain.place_eq_ok_iff {links : Nat} (hplain : tree.Plain) {found : Location}
    {last : OsText} (hdir : GoDown dir) :
    tree.place links [] (dir ++ [name]) = .ok (found, last) ↔
      found = dir ∧ last = name ∧ tree.entry? dir = some .directory := by
  rw [place, List.getLast?_concat, List.dropLast_concat]
  simp only [Sequence.bind_eq_ok_iff, hplain.walk_names_eq_ok_iff hdir]
  constructor
  · rintro ⟨loc, ⟨rfl, -⟩, h⟩
    split at h
    · next hentry =>
        cases h
        exact ⟨rfl, rfl, hentry⟩
    · cases h
  · rintro ⟨rfl, rfl, hentry⟩
    exact ⟨found, ⟨rfl, .directory, hentry⟩, by rw [if_pos hentry]⟩

theorem goDown_of_append {names : List OsText} (h : GoDown (dir ++ names)) : GoDown dir :=
  fun name hname => h name (List.mem_append_left _ hname)

/-- The names of a path are none, or there is a last one. -/
theorem names_cases (p : Path) : p.names = [] ∨ ∃ dir name, p.names = dir ++ [name] ∧
    IsSegment name := by
  rcases List.eq_nil_or_concat' p.names with hnil | ⟨dir, name, hnames⟩
  · exact Or.inl hnil
  · refine Or.inr ⟨dir, name, hnames, Path.isSegment_of_mem_names (p := p) ?_⟩
    rw [hnames]
    simp

theorem isOwnName_iff : isOwnName name = true ↔ name ≠ "." ∧ name ≠ ".." := by
  simp [isOwnName]

/-! ## Making one directory -/

theorem makingNames_eq (p : Path) : makingNames p = p.names := by
  rw [makingNames, Path.segments_eq]
  split
  · exact List.dropLast_concat
  · rfl

theorem Plain.makeDirectory_eq_ok_iff (hplain : tree.Plain) (hp : p.IsPlain) {made : FileTree} :
    tree.makeDirectory p = .ok made ↔ ∃ dir name, p.names = dir ++ [name] ∧ IsName name ∧
      tree.entry? dir = some .directory ∧ tree.entry? (dir ++ [name]) = none ∧
      made = tree.put (dir ++ [name]) .directory := by
  rw [makeDirectory, makingNames_eq]
  rcases names_cases p with hnil | ⟨dir, name, hnames, hsegment⟩
  · rw [hnil]
    refine iff_of_false (by simp) ?_
    rintro ⟨dir, name, hnames, -⟩
    simp at hnames
  · have hdown : GoDown (dir ++ [name]) := hnames ▸ hp
    have hown := hdown name (by simp)
    rw [hnames]
    split
    · next heq => simp at heq
    · simp only [Sequence.bind_eq_ok_iff, Prod.exists,
        hplain.place_eq_ok_iff (goDown_of_append hdown)]
      constructor
      · rintro ⟨_, _, ⟨rfl, rfl, hdir⟩, h⟩
        rw [isOwnName_iff.2 hown, Bool.not_true, if_neg Bool.false_ne_true] at h
        split at h
        · cases h
        · next hlength =>
            split at h
            · cases h
            · next hnul =>
                split at h
                · cases h
                · next hnone =>
                    cases h
                    refine ⟨_, _, rfl, ⟨hsegment, hown.1, hown.2, Nat.not_lt.1 hlength,
                      by simpa using hnul⟩, hdir, by simpa using hnone, rfl⟩
      · rintro ⟨dir', name', heq, hname, hdir, hnone, rfl⟩
        obtain ⟨rfl, hsingle⟩ := List.append_inj' heq rfl
        obtain rfl := List.singleton_inj.1 hsingle
        refine ⟨dir, name, ⟨rfl, rfl, hdir⟩, ?_⟩
        obtain ⟨-, -, -, hlength, hnul⟩ := hname
        rw [isOwnName_iff.2 hown, Bool.not_true, if_neg Bool.false_ne_true,
          if_neg (Nat.not_lt.2 hlength), hnul, if_neg Bool.false_ne_true, hnone]
        rfl

theorem Plain.ensureDirectory_changedBy (hplain : tree.Plain) (hp : p.IsPlain) {made : FileTree}
    (h : tree.ensureDirectory p = .ok made) :
    ChangedBy (fun loc entry => loc <+: p.names ∧ entry = .directory) tree made ∧
      made.entry? p.names = some .directory := by
  unfold ensureDirectory at h
  split at h
  · next made' hmade =>
      cases h
      obtain ⟨dir, name, hnames, hname, hdir, hnone, rfl⟩ :=
        (hplain.makeDirectory_eq_ok_iff hp).1 hmade
      rw [hnames]
      refine ⟨ChangedBy.put hplain hname hdir rfl ?_ ⟨List.prefix_rfl, rfl⟩, ?_⟩
      · intro old hold
        rw [hnone] at hold
        cases hold
      · rw [entry?_put (by simp), if_pos rfl]
  · split at h
    · next hdirectory =>
        cases h
        exact ⟨ChangedBy.refl hplain, ((hplain.isDirectory_iff hp).1 hdirectory).2⟩
    · cases h

/-! ## Making directories on the way -/

theorem Plain.makeDirectoriesWithin_changedBy (levels : Nat) (hplain : tree.Plain)
    (hp : p.IsPlain) :
    ChangedBy (fun loc entry => loc <+: p.names ∧ entry = .directory) tree
      (makeDirectoriesWithin levels tree p).1 ∧
    ((makeDirectoriesWithin levels tree p).2 = .ok () →
      entry? (makeDirectoriesWithin levels tree p).1 p.names = some .directory) := by
  induction levels generalizing tree p with
  | zero => exact ⟨ChangedBy.refl hplain, nofun⟩
  | succ levels ih =>
      have hunchanged : ChangedBy (fun loc entry => loc <+: p.names ∧ entry = .directory) tree
        tree := ChangedBy.refl hplain
      unfold makeDirectoriesWithin
      split
      · next made hmade =>
          obtain ⟨hchanged, hentry⟩ := hplain.ensureDirectory_changedBy hp hmade
          exact ⟨hchanged, fun _ => hentry⟩
      · split
        · exact ⟨hunchanged, nofun⟩
        · next above habove =>
            -- What the directory above brings lies on the way to `p` too.
            obtain ⟨hchanged, -⟩ := ih hplain (Path.isPlain_of_parent? hp habove)
            have hnames := (Path.names_of_parent? hp habove).1
            have hchanged : ChangedBy (fun loc entry => loc <+: p.names ∧ entry = .directory) tree
                (makeDirectoriesWithin levels tree above).1 :=
              hchanged.mono fun loc entry hbrought =>
                ⟨hbrought.1.trans (hnames ▸ List.dropLast_prefix _), hbrought.2⟩
            split
            · next grown e heq =>
                rw [heq] at hchanged
                exact ⟨hchanged, nofun⟩
            · next grown heq =>
                rw [heq] at hchanged
                split
                · next made hmade =>
                    obtain ⟨hchanged', hentry⟩ := hchanged.plain.ensureDirectory_changedBy hp hmade
                    exact ⟨hchanged.trans hchanged', fun _ => hentry⟩
                · exact ⟨hchanged, nofun⟩
      · exact ⟨hunchanged, nofun⟩

/-- Making directories brings directories that lie on the way and nothing else. -/
theorem Plain.makeDirectories_changedBy (hplain : tree.Plain) (hp : p.IsPlain) :
    ChangedBy (fun loc entry => loc <+: p.names ∧ entry = .directory) tree
      (tree.makeDirectories p).1 ∧
    ((tree.makeDirectories p).2 = .ok () →
      entry? (tree.makeDirectories p).1 p.names = some .directory) := by
  rw [makeDirectories]
  split
  · next hempty =>
      refine ⟨ChangedBy.refl hplain, fun _ => ?_⟩
      have hnames : p.names = [] := by
        rw [Path.names, OsText.isEmpty_iff.1 hempty, Path.pieces_empty]
        rfl
      rw [hnames]
      exact entry?_nil
  · exact hplain.makeDirectoriesWithin_changedBy _ hp

theorem Plain.ensureDirectory_of_entry (hplain : tree.Plain) (hp : p.IsPlain) (hne : p.raw ≠ "")
    (hentry : tree.entry? p.names = some .directory) : tree.ensureDirectory p = .ok tree := by
  have hmake : ∀ made, tree.makeDirectory p ≠ .ok made := by
    intro made hmade
    obtain ⟨dir, name, hnames, -, -, hnone, -⟩ := (hplain.makeDirectory_eq_ok_iff hp).1 hmade
    rw [hnames, hnone] at hentry
    cases hentry
  rw [ensureDirectory]
  split
  · next made hmade => exact absurd hmade (hmake made)
  · rw [(hplain.isDirectory_iff hp).2 ⟨hne, hentry⟩]
    rfl

/-- A directory that exists is not made again. -/
theorem Plain.makeDirectories_of_entry (hplain : tree.Plain) (hp : p.IsPlain)
    (hentry : tree.entry? p.names = some .directory) :
    tree.makeDirectories p = (tree, .ok ()) := by
  rw [makeDirectories]
  split
  · rfl
  · next hempty =>
      rw [makeDirectoriesWithin,
        hplain.ensureDirectory_of_entry hp (by simpa using hempty) hentry]

/-! ## Where directories can be made -/

/-- No file stands on the way to a location. -/
def WayFree (tree : FileTree) (loc : Location) : Prop :=
  ∀ above, above <+: loc → ∀ bytes, tree.entry? above ≠ some (.file bytes)

/-- Whether a file stands at a location. -/
def isFileAt (tree : FileTree) (loc : Location) : Bool :=
  match tree.entry? loc with
  | some (.file _) => true
  | _ => false

instance (tree : FileTree) (loc : Location) : Decidable (tree.WayFree loc) := decidable_of_iff
  (∀ above ∈ loc.inits, tree.isFileAt above = false) <| by
    simp only [WayFree, isFileAt, List.mem_inits]
    refine forall₂_congr fun above _ => ?_
    split
    · next bytes hentry => simp [hentry]
    · next hentry => exact iff_of_true rfl fun bytes h => hentry bytes h

theorem Plain.makeDirectory_eq_notFound (hplain : tree.Plain) (hp : p.IsPlain)
    (hnames : p.names = dir ++ [name]) (hordinary : ∀ part ∈ p.names, IsOrdinary part)
    (hfree : tree.WayFree p.names) (hnone : tree.entry? dir = none) :
    tree.makeDirectory p = .error .notFound := by
  rw [hnames] at hordinary hfree
  have hdown : GoDown (dir ++ [name]) := hnames ▸ hp
  have hwalk : tree.walk linkLimit [] dir = .error .notFound := by
    refine hplain.walk_eq_notFound (goDown_of_append hdown)
      (fun part hpart => hordinary part (List.mem_append_left _ hpart)) entry?_nil ?_ hnone
    intro above habove
    exact hfree above (habove.trans (List.prefix_append _ _))
  rw [makeDirectory, makingNames_eq, hnames]
  split
  · next heq => simp at heq
  · rw [place, List.getLast?_concat, List.dropLast_concat]
    simp only
    rw [hwalk]
    rfl

theorem Plain.ensureDirectory_eq_ok (hplain : tree.Plain) (hp : p.IsPlain) (hne : p.raw ≠ "")
    (hnames : p.names = dir ++ [name]) (hordinary : ∀ part ∈ p.names, IsOrdinary part)
    (hfree : tree.WayFree p.names) (hdir : tree.entry? dir = some .directory) :
    ∃ made, tree.ensureDirectory p = .ok made := by
  rcases hplain.cases p.names with hnone | hdirectory | ⟨bytes, hfile⟩
  · have hname : IsName name :=
      ⟨Path.isSegment_of_mem_names (p := p) (by simp [hnames]), hordinary name (by simp [hnames])⟩
    have hmade : tree.makeDirectory p = .ok (tree.put (dir ++ [name]) .directory) :=
      (hplain.makeDirectory_eq_ok_iff hp).2
        ⟨dir, name, hnames, hname, hdir, by rw [← hnames]; exact hnone, rfl⟩
    exact ⟨_, by rw [ensureDirectory, hmade]⟩
  · exact ⟨tree, hplain.ensureDirectory_of_entry hp hne hdirectory⟩
  · exact absurd hfile (hfree _ List.prefix_rfl bytes)

theorem Plain.ensureDirectory_eq_notFound (hplain : tree.Plain) (hp : p.IsPlain)
    (hnames : p.names = dir ++ [name]) (hordinary : ∀ part ∈ p.names, IsOrdinary part)
    (hfree : tree.WayFree p.names) (hnone : tree.entry? dir = none) :
    tree.ensureDirectory p = .error .notFound := by
  have hnot : tree.isDirectory p = false := by
    rw [Bool.eq_false_iff]
    intro hdirectory
    have hentry := ((hplain.isDirectory_iff hp).1 hdirectory).2
    rw [hnames, hplain.entry?_append_of_none hnone] at hentry
    cases hentry
  rw [ensureDirectory, hplain.makeDirectory_eq_notFound hp hnames hordinary hfree hnone, hnot]
  rfl

/-- A missing directory above is made first. -/
theorem makeDirectoriesWithin_of_above {levels : Nat} {above : Path} {grown made : FileTree}
    (hmissing : tree.ensureDirectory p = .error .notFound) (habove : p.parent? = some above)
    (hgrown : makeDirectoriesWithin levels tree above = (grown, .ok ()))
    (hmade : grown.ensureDirectory p = .ok made) :
    makeDirectoriesWithin (levels + 1) tree p = (made, .ok ()) := by
  rw [makeDirectoriesWithin, hmissing]
  simp only [habove, hgrown, hmade]

theorem Plain.makeDirectoriesWithin_eq_ok (levels : Nat) (hplain : tree.Plain) (hp : p.IsPlain)
    (hne : p.raw ≠ "") (hlevels : p.names.length < levels)
    (hordinary : ∀ part ∈ p.names, IsOrdinary part) (hfree : tree.WayFree p.names) :
    (makeDirectoriesWithin levels tree p).2 = .ok () := by
  induction levels generalizing p with
  | zero => omega
  | succ levels ih =>
      rcases names_cases p with hnil | ⟨dir, name, hnames, -⟩
      · rw [makeDirectoriesWithin, hplain.ensureDirectory_of_entry hp hne (by rw [hnil]; rfl)]
      rcases hplain.cases dir with hnone | hdir | ⟨bytes, hfile⟩
      · -- The directory above is missing, and making it succeeds.
        cases habove : p.parent? with
        | none =>
            rw [(Path.parent?_eq_none_iff hp).1 habove] at hnames
            simp at hnames
        | some above =>
            have hplain' := Path.isPlain_of_parent? hp habove
            have hdir : above.names = dir := by
              rw [(Path.names_of_parent? hp habove).1, hnames, List.dropLast_concat]
            have hsub : above.names <+: p.names := by
              rw [hdir, hnames]
              exact List.prefix_append _ _
            have hlength : above.names.length + 1 = p.names.length := by
              rw [hdir, hnames, List.length_append, List.length_singleton]
            have hne' : above.raw ≠ "" := by
              intro hempty
              rw [← hdir, Path.names, hempty, Path.pieces_empty] at hnone
              cases hnone
            have hok := ih hplain' hne' (by omega)
              (fun part hpart => hordinary part (hsub.subset hpart))
              (fun upper hupper => hfree upper (hupper.trans hsub))
            obtain ⟨hchanged, hentry⟩ := hplain.makeDirectoriesWithin_changedBy levels hplain'
            have hentry := hentry hok
            rw [hdir] at hentry
            -- No file has come in the way.
            have hfree' : (makeDirectoriesWithin levels tree above).1.WayFree p.names := by
              intro upper hupper bytes hfile
              rcases hchanged.origin upper _ hfile with hbefore | ⟨-, hdirectory⟩
              · exact hfree upper hupper bytes hbefore
              · cases hdirectory
            obtain ⟨made, hmade⟩ :=
              hchanged.plain.ensureDirectory_eq_ok hp hne hnames hordinary hfree' hentry
            have hmissing := hplain.ensureDirectory_eq_notFound hp hnames hordinary hfree hnone
            rw [makeDirectoriesWithin_of_above hmissing habove (Prod.ext rfl hok) hmade]
      · obtain ⟨made, hmade⟩ := hplain.ensureDirectory_eq_ok hp hne hnames hordinary hfree hdir
        rw [makeDirectoriesWithin, hmade]
      · exact absurd hfile (hfree dir (by rw [hnames]; exact List.prefix_append _ _) bytes)

/-- Where no file is in the way, directories with ordinary names can be made. -/
theorem Plain.makeDirectories_eq_ok (hplain : tree.Plain) (hp : p.IsPlain)
    (hordinary : ∀ part ∈ p.names, IsOrdinary part) (hfree : tree.WayFree p.names) :
    (tree.makeDirectories p).2 = .ok () := by
  rw [makeDirectories]
  split
  · rfl
  · next hempty =>
      refine hplain.makeDirectoriesWithin_eq_ok _ hp (by simpa using hempty) ?_ hordinary hfree
      rw [Path.segments_eq]
      split
      · rw [List.length_append]
        omega
      · omega

/-! ## Writing a file -/

theorem Plain.writeFrom_eq_ok_iff {links : Nat} (hplain : tree.Plain)
    (hdown : GoDown (dir ++ [name])) {bytes : ByteArray} {written : FileTree} :
    tree.writeFrom links [] (dir ++ [name]) bytes = .ok written ↔
      tree.entry? dir = some .directory ∧ IsOrdinary name ∧
      tree.entry? (dir ++ [name]) ≠ some .directory ∧
      written = tree.put (dir ++ [name]) (.file bytes) := by
  have hown := hdown name (by simp)
  unfold writeFrom
  simp only [Sequence.bind_eq_ok_iff, Prod.exists,
    hplain.place_eq_ok_iff (goDown_of_append hdown)]
  constructor
  · rintro ⟨dir, name, ⟨rfl, rfl, hdir⟩, h⟩
    rw [isOwnName_iff.2 hown, Bool.not_true, if_neg Bool.false_ne_true] at h
    split at h
    · cases h
    · next hlength =>
        split at h
        · cases h
        · next hnul =>
            have hordinary : IsOrdinary name :=
              ⟨hown.1, hown.2, Nat.not_lt.1 hlength, by simpa using hnul⟩
            rcases hplain.cases (dir ++ [name]) with hentry | hentry | ⟨old, hentry⟩
            · rw [hentry] at h ⊢
              cases h
              exact ⟨hdir, hordinary, by simp, rfl⟩
            · rw [hentry] at h
              cases h
            · rw [hentry] at h ⊢
              cases h
              exact ⟨hdir, hordinary, by simp, rfl⟩
  · rintro ⟨hdir, ⟨-, -, hlength, hnul⟩, hnot, rfl⟩
    refine ⟨dir, name, ⟨rfl, rfl, hdir⟩, ?_⟩
    rw [isOwnName_iff.2 hown, Bool.not_true, if_neg Bool.false_ne_true,
      if_neg (Nat.not_lt.2 hlength), hnul, if_neg Bool.false_ne_true]
    rcases hplain.cases (dir ++ [name]) with hentry | hentry | ⟨old, hentry⟩
    · rw [hentry]
    · exact absurd hentry hnot
    · rw [hentry]

/-- A file can be written exactly where its directory exists and no directory has its place. -/
theorem Plain.writeText_eq_ok_iff (hplain : tree.Plain) (hp : p.IsPlain) {text : String}
    {written : FileTree} (hnames : p.names = dir ++ [name]) :
    tree.writeText p text = .ok written ↔ Path.endsWithSeparator p.raw = false ∧
      tree.entry? dir = some .directory ∧ IsOrdinary name ∧
      tree.entry? (dir ++ [name]) ≠ some .directory ∧
      written = tree.put (dir ++ [name]) (.file text.toUTF8) := by
  rw [writeText, writeBytes]
  by_cases hends : Path.endsWithSeparator p.raw = true
  · rw [if_pos hends, Sequence.bind_eq_ok_iff]
    refine iff_of_false ?_ ?_
    · rintro ⟨_, -, h⟩
      cases h
    · rintro ⟨hnot, -⟩
      rw [hends] at hnot
      cases hnot
  · have hdown : GoDown (dir ++ [name]) := hnames ▸ hp
    rw [if_neg hends, Path.segments_eq, if_neg hends, hnames, hplain.writeFrom_eq_ok_iff hdown]
    simp [hends]

/-- A file cannot take the place of a directory. -/
theorem Plain.writeText_eq_isADirectory (hplain : tree.Plain) (hp : p.IsPlain) {text : String}
    (hnames : p.names = dir ++ [name]) (hends : Path.endsWithSeparator p.raw = false)
    (hdirectory : tree.entry? (dir ++ [name]) = some .directory) :
    tree.writeText p text = .error .isADirectory := by
  have hdown : GoDown (dir ++ [name]) := hnames ▸ hp
  have hdir := hplain.entry?_of_append hdirectory (List.cons_ne_nil name [])
  have hname : IsName name := hplain.isName hdirectory (by simp)
  obtain ⟨-, -, -, hlength, hnul⟩ := hname
  have hplace : tree.place linkLimit [] (dir ++ [name]) = .ok (dir, name) :=
    (hplain.place_eq_ok_iff (goDown_of_append hdown)).2 ⟨rfl, rfl, hdir⟩
  rw [writeText, writeBytes, hends, if_neg Bool.false_ne_true, Path.segments_eq, hends,
    if_neg Bool.false_ne_true, hnames, writeFrom, hplace]
  show (if !isOwnName name then _ else _) = _
  rw [isOwnName_iff.2 (hdown name (by simp)), Bool.not_true, if_neg Bool.false_ne_true,
    if_neg (Nat.not_lt.2 hlength), hnul, if_neg Bool.false_ne_true]
  simp only [hdirectory]

/-- Writing brings its file and nothing else. -/
theorem Plain.writeText_changedBy (hplain : tree.Plain) (hp : p.IsPlain) {text : String}
    {written : FileTree} (h : tree.writeText p text = .ok written) :
    ChangedBy (fun loc entry => loc = p.names ∧ entry = .file text.toUTF8) tree written ∧
      written.entry? p.names = some (.file text.toUTF8) := by
  rcases names_cases p with hnil | ⟨dir, name, hnames, hsegment⟩
  · exfalso
    rw [writeText, writeBytes] at h
    split at h
    · obtain ⟨_, -, h⟩ := Sequence.bind_eq_ok_iff.1 h
      cases h
    · next hends =>
        rw [Path.segments_eq, if_neg hends, hnil, writeFrom, Sequence.bind_eq_ok_iff] at h
        obtain ⟨_, hplace, -⟩ := h
        rw [place] at hplace
        cases hplace
  · obtain ⟨-, hdir, hordinary, hnot, rfl⟩ := (hplain.writeText_eq_ok_iff hp hnames).1 h
    rw [hnames]
    refine ⟨ChangedBy.put hplain ⟨hsegment, hordinary⟩ hdir rfl ?_ ⟨rfl, rfl⟩, ?_⟩
    · intro old hold
      refine iff_of_false nofun ?_
      rintro rfl
      exact hnot hold
    · rw [entry?_put (by simp), if_pos rfl]

/-- Where a file stands, another one can be written in its place. -/
theorem Plain.writeText_of_file (hplain : tree.Plain) (hp : p.IsPlain) {text : String}
    {old : ByteArray} (hends : Path.endsWithSeparator p.raw = false)
    (hentry : tree.entry? p.names = some (.file old)) :
    tree.writeText p text = .ok (tree.put p.names (.file text.toUTF8)) := by
  rcases names_cases p with hnil | ⟨dir, name, hnames, -⟩
  · rw [hnil, entry?_nil] at hentry
    cases hentry
  · rw [hnames] at hentry ⊢
    have hname : IsName name := hplain.isName hentry (by simp)
    refine (hplain.writeText_eq_ok_iff hp hnames).2 ⟨hends, ?_, hname.2, ?_, rfl⟩
    · exact hplain.entry?_of_append hentry (List.cons_ne_nil name [])
    · rw [hentry]
      exact nofun

end SiteCompiler.FileTree
