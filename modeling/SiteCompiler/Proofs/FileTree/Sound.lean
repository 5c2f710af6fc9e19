import SiteCompiler.Proofs.FileTree.Walk
import SiteCompiler.Proofs.Path
import Mathlib.Data.List.Induction
import Mathlib.Data.List.Nodup
import Mathlib.Data.List.Perm.Subperm
set_option autoImplicit false

/-! # Trees that a file system can hold

A `FileTree` is a list of entries, and not every list is a file system: in a *sound* tree every
location has one entry, every entry stands in a directory, and every name is one that a file can
have. A *plain* tree is sound and has no links. Putting an entry in a directory keeps both
(`Sound.put`, `Plain.put`).
-/

namespace SiteCompiler

/-- Whether an entry is a link. -/
def Entry.isLink : Entry → Bool
  | .link _ => true
  | _ => false

namespace FileTree

/-- A name that an entry of a directory can have. -/
def IsName (name : OsText) : Prop := Path.IsSegment name ∧ IsOrdinary name

instance : DecidablePred IsName := fun _ => inferInstanceAs (Decidable (_ ∧ _))

/-- The tree is one that a file system can hold. -/
structure Sound (tree : FileTree) : Prop where
  nodup : (tree.entries.map Prod.fst).Nodup
  above : ∀ e ∈ tree.entries, tree.entry? e.1.dropLast = some .directory
  named : ∀ e ∈ tree.entries, e.1 ≠ [] ∧ ∀ name ∈ e.1, IsName name

/-- A file system without links. -/
structure Plain (tree : FileTree) : Prop extends Sound tree where
  linkless : ∀ e ∈ tree.entries, e.2.isLink = false

instance : DecidablePred Sound := fun tree => decidable_of_iff
  ((tree.entries.map Prod.fst).Nodup ∧
    (∀ e ∈ tree.entries, tree.entry? e.1.dropLast = some .directory) ∧
    ∀ e ∈ tree.entries, e.1 ≠ [] ∧ ∀ name ∈ e.1, IsName name)
  ⟨fun ⟨hnodup, habove, hnamed⟩ => ⟨hnodup, habove, hnamed⟩,
    fun h => ⟨h.nodup, h.above, h.named⟩⟩

instance : DecidablePred Plain := fun tree => decidable_of_iff
  (tree.Sound ∧ ∀ e ∈ tree.entries, e.2.isLink = false)
  ⟨fun ⟨hsound, hlinkless⟩ => ⟨hsound, hlinkless⟩, fun h => ⟨h.toSound, h.linkless⟩⟩

variable {tree : FileTree} {loc above : Location} {entry : Entry} {name : OsText}

/-! ## Entries and locations -/

@[simp] theorem entry?_nil : tree.entry? [] = some .directory := if_pos rfl

theorem entry?_of_ne_nil (h : loc ≠ []) : tree.entry? loc = tree.entries.lookup loc := if_neg h

theorem Sound.entry?_eq_some_iff (hsound : tree.Sound) (hne : loc ≠ []) :
    tree.entry? loc = some entry ↔ (loc, entry) ∈ tree.entries := by
  rw [entry?_of_ne_nil hne, List.lookup_eq_some_iff]
  constructor
  · rintro ⟨before, after, heq, -⟩
    rw [heq]
    exact List.mem_append_right _ List.mem_cons_self
  · intro hmem
    obtain ⟨before, after, heq⟩ := List.append_of_mem hmem
    refine ⟨before, after, heq, ?_⟩
    intro e he
    have hnodup := hsound.nodup
    rw [heq, List.map_append, List.map_cons] at hnodup
    have hnot : loc ∉ before.map Prod.fst := fun hbefore =>
      (List.nodup_append.1 hnodup).2.2 loc hbefore loc List.mem_cons_self rfl
    rw [bne_iff_ne]
    rintro rfl
    exact hnot (List.mem_map_of_mem he)

theorem Sound.entry?_dropLast (hsound : tree.Sound) (h : tree.entry? loc = some entry) :
    tree.entry? loc.dropLast = some .directory := by
  by_cases hne : loc = []
  · rw [hne]
    rfl
  · exact hsound.above _ ((hsound.entry?_eq_some_iff hne).1 h)

theorem Sound.isName (hsound : tree.Sound) (h : tree.entry? loc = some entry) (hname : name ∈ loc) :
    IsName name :=
  (hsound.named _ ((hsound.entry?_eq_some_iff (List.ne_nil_of_mem hname)).1 h)).2 name hname

/-- If the names of all entries are texts, so are those of everything that exists. -/
theorem Sound.isText (hsound : tree.Sound)
    (htext : ∀ e ∈ tree.entries, ∀ name ∈ e.1, name.IsText) (h : tree.entry? loc = some entry)
    (hname : name ∈ loc) : name.IsText :=
  htext _ ((hsound.entry?_eq_some_iff (List.ne_nil_of_mem hname)).1 h) name hname

/-- Whatever exists stands below directories only. -/
theorem Sound.entry?_of_append (hsound : tree.Sound) {names : List OsText}
    (h : tree.entry? (loc ++ names) = some entry) (hne : names ≠ []) :
    tree.entry? loc = some .directory := by
  induction names using List.reverseRecOn generalizing entry with
  | nil => exact absurd rfl hne
  | append_singleton names name ih =>
      have habove := hsound.entry?_dropLast h
      rw [← List.append_assoc, List.dropLast_concat] at habove
      by_cases hnames : names = []
      · rw [hnames, List.append_nil] at habove
        exact habove
      · exact ih habove hnames

theorem Sound.entry?_append_of_none (hsound : tree.Sound) (h : tree.entry? loc = none)
    (names : List OsText) : tree.entry? (loc ++ names) = none := by
  by_cases hne : names = []
  · rw [hne, List.append_nil, h]
  · cases hentry : tree.entry? (loc ++ names) with
    | none => rfl
    | some entry =>
        rw [hsound.entry?_of_append hentry hne] at h
        cases h

theorem Sound.entry?_of_isPrefix (hsound : tree.Sound) (h : tree.entry? loc = some .directory)
    (habove : above <+: loc) : tree.entry? above = some .directory := by
  obtain ⟨names, rfl⟩ := habove
  by_cases hne : names = []
  · rwa [hne, List.append_nil] at h
  · exact hsound.entry?_of_append h hne

/-- What is not a directory has nothing below it. -/
theorem Sound.eq_nil_of_file (hsound : tree.Sound) {bytes : ByteArray} {names : List OsText}
    (hfile : tree.entry? loc = some (.file bytes)) (h : tree.entry? (loc ++ names) = some entry) :
    names = [] := by
  by_contra hne
  rw [hsound.entry?_of_append h hne] at hfile
  cases hfile

theorem Plain.entry?_ne_link (hplain : tree.Plain) (target : OsText) :
    tree.entry? loc ≠ some (.link target) := by
  intro h
  by_cases hne : loc = []
  · rw [hne] at h
    cases h
  · have hlink := hplain.linkless _ ((hplain.entry?_eq_some_iff hne).1 h)
    cases hlink

/-- Without links there are only directories and files. -/
theorem Plain.cases (hplain : tree.Plain) (loc : Location) :
    tree.entry? loc = none ∨ tree.entry? loc = some .directory ∨
      ∃ bytes, tree.entry? loc = some (.file bytes) := by
  cases h : tree.entry? loc with
  | none => exact Or.inl rfl
  | some entry =>
      cases entry with
      | file bytes => exact Or.inr (Or.inr ⟨bytes, rfl⟩)
      | directory => exact Or.inr (Or.inl rfl)
      | link target => exact absurd h (hplain.entry?_ne_link target)

/-! ## How deep a tree is -/

/-- No location has more names than the tree has entries: all locations above it are entries. -/
theorem Sound.length_le (hsound : tree.Sound) (h : tree.entry? loc = some entry) :
    loc.length ≤ tree.entries.length := by
  let onTheWay := (List.range loc.length).map fun i => loc.take (i + 1)
  have hnodup : onTheWay.Nodup := by
    refine List.Nodup.map_on ?_ List.nodup_range
    intro i hi j hj heq
    have hlength := congrArg List.length heq
    rw [List.length_take, List.length_take] at hlength
    have hi := List.mem_range.1 hi
    have hj := List.mem_range.1 hj
    omega
  have hsubset : onTheWay ⊆ tree.entries.map Prod.fst := by
    intro upper hupper
    obtain ⟨i, hi, rfl⟩ := List.mem_map.1 hupper
    have hi := List.mem_range.1 hi
    have hne : loc.take (i + 1) ≠ [] := by
      intro hnil
      have hlength := congrArg List.length hnil
      rw [List.length_take, List.length_nil] at hlength
      omega
    have hentry : ∃ e, tree.entry? (loc.take (i + 1)) = some e := by
      by_cases hrest : loc.drop (i + 1) = []
      · rw [← List.take_append_drop (i + 1) loc, hrest, List.append_nil] at h
        exact ⟨entry, h⟩
      · rw [← List.take_append_drop (i + 1) loc] at h
        exact ⟨.directory, hsound.entry?_of_append h hrest⟩
    obtain ⟨e, he⟩ := hentry
    exact List.mem_map_of_mem ((hsound.entry?_eq_some_iff hne).1 he)
  have hlength := (hnodup.subperm hsubset).length_le
  simpa [onTheWay] using hlength

/-! ## The names in a directory -/

theorem childName?_eq_some_iff {dir : Location} :
    childName? dir loc = some name ↔ loc = dir ++ [name] := by
  constructor
  · intro h
    unfold childName? at h
    split at h
    · next found hfound =>
        cases h
        exact (List.isPrefixOf?_eq_some_iff_append_eq.1 hfound).symm
    · cases h
  · rintro rfl
    have hrest : dir.isPrefixOf? (dir ++ [name]) = some [name] :=
      List.isPrefixOf?_eq_some_iff_append_eq.2 rfl
    rw [childName?, hrest]

theorem Sound.mem_names (hsound : tree.Sound) {dir : Location} :
    name ∈ tree.names dir ↔ ∃ entry, tree.entry? (dir ++ [name]) = some entry := by
  rw [names, List.mem_mergeSort, List.mem_filterMap]
  constructor
  · rintro ⟨⟨loc, entry⟩, hmem, hchild⟩
    obtain rfl := childName?_eq_some_iff.1 hchild
    exact ⟨entry, (hsound.entry?_eq_some_iff (by simp)).2 hmem⟩
  · rintro ⟨entry, hentry⟩
    exact ⟨(dir ++ [name], entry), (hsound.entry?_eq_some_iff (by simp)).1 hentry,
      childName?_eq_some_iff.2 rfl⟩

theorem Sound.nodup_names (hsound : tree.Sound) (dir : Location) : (tree.names dir).Nodup := by
  rw [names, (List.mergeSort_perm _ _).nodup_iff]
  have hkeys : (tree.entries.filterMap fun e => childName? dir e.1)
      = (tree.entries.map Prod.fst).filterMap (childName? dir) := by
    rw [List.filterMap_map]
    rfl
  rw [hkeys]
  refine List.Pairwise.filterMap _ ?_ hsound.nodup
  rintro loc loc' hne name hname name' hname' rfl
  exact hne ((childName?_eq_some_iff.1 hname).trans (childName?_eq_some_iff.1 hname').symm)

/-- The names in a directory stand in the order of their bytes, each once. -/
theorem Sound.pairwise_names (hsound : tree.Sound) (dir : Location) :
    (tree.names dir).Pairwise fun name other => name.bytes < other.bytes := by
  have hsorted : (tree.names dir).Pairwise fun name other => decide (name ≤ other) = true := by
    refine List.pairwise_mergeSort (fun a b c => ?_) (fun a b => ?_) _
    · simpa using OsText.le_trans
    · simpa using OsText.le_total a b
  refine (hsorted.and (hsound.nodup_names dir)).imp ?_
  rintro name other ⟨hle, hne⟩
  have hbytes : name.bytes ≤ other.bytes := of_decide_eq_true hle
  exact Std.lt_of_le_of_ne hbytes fun heq => hne (OsText.bytes_inj.1 heq)

/-! ## Putting an entry in a directory -/

theorem lookup_map_put (entries : List (Location × Entry)) (other : Location) :
    (entries.map fun e => if e.1 = loc then (loc, entry) else e).lookup other
      = if other = loc ∧ loc ∈ entries.map Prod.fst then some entry else entries.lookup other := by
  induction entries with
  | nil => simp
  | cons e entries ih =>
      obtain ⟨key, e'⟩ := e
      by_cases hat : key = loc
      · subst hat
        by_cases hother : other = key
        · simp [hother]
        · have hbeq : (other == key) = false := beq_eq_false_iff_ne.2 hother
          simp only [List.map_cons, if_true, List.lookup_cons, hbeq]
          rw [ih]
          simp [hother]
      · by_cases hother : other = key
        · subst hother
          rw [List.map_cons, if_neg hat, List.lookup_cons, List.lookup_cons, beq_self_eq_true,
            if_neg fun h => hat h.1]
        · have hbeq : (other == key) = false := beq_eq_false_iff_ne.2 hother
          simp only [List.map_cons, if_neg hat, List.lookup_cons, hbeq]
          rw [ih]
          simp only [List.mem_cons, or_iff_right (Ne.symm hat)]

@[simp] theorem entry?_put (hne : loc ≠ []) (other : Location) :
    entry? (tree.put loc entry) other = if other = loc then some entry else tree.entry? other := by
  by_cases hroot : other = []
  · rw [hroot, if_neg (Ne.symm hne)]
    rfl
  rw [entry?_of_ne_nil hroot, entry?_of_ne_nil hroot, put]
  have hany : (tree.entries.any fun e => e.1 == loc) = true ↔ loc ∈ tree.entries.map Prod.fst := by
    rw [List.any_eq_true, List.mem_map]
    exact exists_congr fun e => and_congr_right fun _ => beq_iff_eq
  by_cases hmem : loc ∈ tree.entries.map Prod.fst
  · rw [if_pos (hany.2 hmem), lookup_map_put]
    simp [hmem]
  · rw [if_neg (fun h => hmem (hany.1 h)), List.lookup_append]
    by_cases hother : other = loc
    · subst hother
      have hnone : tree.entries.lookup other = none := by
        rw [List.lookup_eq_none_iff]
        intro e he
        rw [bne_iff_ne]
        rintro rfl
        exact hmem (List.mem_map_of_mem he)
      rw [hnone, if_pos rfl]
      simp
    · have hbeq : (other == loc) = false := beq_eq_false_iff_ne.2 hother
      rw [if_neg hother]
      simp [List.lookup_cons, hbeq]

theorem mem_put {e : Location × Entry} (h : e ∈ (tree.put loc entry).entries) :
    e = (loc, entry) ∨ e ∈ tree.entries := by
  unfold put at h
  split at h
  · obtain ⟨e', he', rfl⟩ := List.mem_map.1 h
    split
    · exact Or.inl rfl
    · exact Or.inr he'
  · rcases List.mem_append.1 h with h | h
    · exact Or.inr h
    · exact Or.inl (List.mem_singleton.1 h)

theorem map_fst_map_put (entries : List (Location × Entry)) :
    (entries.map fun e => if e.1 = loc then (loc, entry) else e).map Prod.fst
      = entries.map Prod.fst := by
  rw [List.map_map]
  refine List.map_congr_left fun e _ => ?_
  by_cases he : e.1 = loc
  · simp [he]
  · simp [he]

theorem nodup_put (h : (tree.entries.map Prod.fst).Nodup) :
    ((tree.put loc entry).entries.map Prod.fst).Nodup := by
  unfold put
  split
  · rw [map_fst_map_put]
    exact h
  · next hany =>
      rw [List.map_append, List.nodup_append]
      refine ⟨h, by simp, ?_⟩
      intro other hother loc' hloc'
      obtain rfl : loc' = loc := by simpa using hloc'
      rintro rfl
      refine hany (List.any_eq_true.2 ?_)
      obtain ⟨e, he, heq⟩ := List.mem_map.1 hother
      exact ⟨e, he, by simpa using heq⟩

/-- An entry may be put in a directory under a fit name, unless it takes the place of a directory
and is none itself. -/
theorem Sound.put (hsound : tree.Sound) {dir : Location} (hname : IsName name)
    (hdir : tree.entry? dir = some .directory)
    (hkind : entry = .directory ∨ tree.entry? (dir ++ [name]) ≠ some .directory) :
    (tree.put (dir ++ [name]) entry).Sound where
  nodup := nodup_put hsound.nodup
  above := by
    intro e he
    rw [entry?_put (by simp)]
    rcases mem_put he with rfl | he
    · -- A location is longer than the one above it.
      have hne : dir ≠ dir ++ [name] := by simp
      rw [List.dropLast_concat, if_neg hne]
      exact hdir
    · have habove := hsound.above e he
      split
      · next heq =>
          rw [heq] at habove
          rw [hkind.resolve_right fun h => h habove]
      · exact habove
  named := by
    intro e he
    rcases mem_put he with rfl | he
    · refine ⟨by simp, fun other hother => ?_⟩
      rcases List.mem_append.1 hother with hother | hother
      · exact hsound.isName hdir hother
      · rw [List.mem_singleton.1 hother]
        exact hname
    · exact hsound.named e he

theorem Plain.put (hplain : tree.Plain) {dir : Location} (hname : IsName name)
    (hdir : tree.entry? dir = some .directory) (hlink : entry.isLink = false)
    (hkind : entry = .directory ∨ tree.entry? (dir ++ [name]) ≠ some .directory) :
    (tree.put (dir ++ [name]) entry).Plain where
  toSound := hplain.toSound.put hname hdir hkind
  linkless := by
    intro e he
    rcases mem_put he with rfl | he
    · exact hlink
    · exact hplain.linkless e he

/-- An entry that takes the place of another one takes no new place. -/
theorem Sound.map_fst_put (hsound : tree.Sound) (hne : loc ≠ []) {old : Entry}
    (h : tree.entry? loc = some old) :
    (tree.put loc entry).entries.map Prod.fst = tree.entries.map Prod.fst := by
  have hmem := (hsound.entry?_eq_some_iff hne).1 h
  have hany : (tree.entries.any fun e => e.1 == loc) = true :=
    List.any_eq_true.2 ⟨_, hmem, by simp⟩
  rw [FileTree.put, if_pos hany]
  exact map_fst_map_put tree.entries

theorem Sound.map_entries (hsound : tree.Sound) : tree.entries.map (fun e => (e.1, some e.2))
    = (tree.entries.map Prod.fst).map fun loc => (loc, tree.entry? loc) := by
  rw [List.map_map]
  refine List.map_congr_left fun e he => ?_
  rw [Function.comp_apply, (hsound.entry?_eq_some_iff (hsound.named e he).1).2 he]

/-- Trees with the same locations in the same order, and the same entries there, are the same. -/
theorem Sound.eq_of_entry? (hsound : tree.Sound) {other : FileTree} (hother : other.Sound)
    (hkeys : other.entries.map Prod.fst = tree.entries.map Prod.fst)
    (hentry : ∀ loc, other.entry? loc = tree.entry? loc) : other = tree := by
  have hentries := hother.map_entries
  rw [hkeys, funext hentry, ← hsound.map_entries] at hentries
  have hinj : Function.Injective fun e : Location × Entry => (e.1, some e.2) := by
    rintro ⟨loc, entry⟩ ⟨loc', entry'⟩ heq
    simpa using heq
  exact congrArg FileTree.mk (List.map_injective_iff.2 hinj hentries)

/-! ## Taking entries away -/

theorem liesUnder_iff : liesUnder above loc = true ↔ above <+: loc := List.isPrefixOf_iff_prefix

theorem lookup_filter_liesUnder (entries : List (Location × Entry)) (h : ¬ above <+: loc) :
    (entries.filter fun e => !liesUnder above e.1).lookup loc = entries.lookup loc := by
  induction entries with
  | nil => rfl
  | cons e entries ih =>
      obtain ⟨key, e'⟩ := e
      by_cases hkey : liesUnder above key = true
      · -- What is taken away is not what is looked for.
        have hne : (loc == key) = false := by
          rw [beq_eq_false_iff_ne]
          rintro rfl
          exact h (liesUnder_iff.1 hkey)
        rw [List.filter_cons, hkey, Bool.not_true, if_neg Bool.false_ne_true, ih,
          List.lookup_cons, hne]
      · rw [List.filter_cons, Bool.eq_false_iff.2 hkey, Bool.not_false, if_pos rfl,
          List.lookup_cons, List.lookup_cons, ih]

/-- Taking away a location leaves what does not lie below it. -/
theorem entry?_erase (h : ¬ above <+: loc) : entry? (tree.erase above) loc = tree.entry? loc := by
  by_cases hroot : loc = []
  · rw [hroot]
    rfl
  · rw [entry?_of_ne_nil hroot, entry?_of_ne_nil hroot]
    exact lookup_filter_liesUnder tree.entries h

theorem mem_erase {e : Location × Entry} :
    e ∈ (tree.erase above).entries ↔ e ∈ tree.entries ∧ ¬ above <+: e.1 := by
  rw [erase, List.mem_filter, Bool.not_eq_true', ← liesUnder_iff, Bool.not_eq_true]

theorem Plain.erase (hplain : tree.Plain) (above : Location) : (tree.erase above).Plain where
  nodup := hplain.nodup.sublist (List.filter_sublist.map Prod.fst)
  above := by
    intro e he
    obtain ⟨hmem, hnot⟩ := mem_erase.1 he
    rw [entry?_erase fun h => hnot (h.trans (List.dropLast_prefix _))]
    exact hplain.above e hmem
  named := fun e he => hplain.named e (mem_erase.1 he).1
  linkless := fun e he => hplain.linkless e (mem_erase.1 he).1

end FileTree

end SiteCompiler
