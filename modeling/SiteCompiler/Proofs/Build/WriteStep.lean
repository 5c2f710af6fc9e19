import SiteCompiler.Build.Emit
import SiteCompiler.Proofs.FileTree.Change
set_option autoImplicit false

/-! # Taking steps of writing

A step brings directories or a file (`WriteStep.Brings`), and a run of steps brings what its steps
bring, also if it ends early (`applyAll_changedBy`). After a run that succeeds, directories and
files are where they were brought to (`holds_applyAll`), each file with the text that was written
last (`entry?_applyAll_write`), and taking the same steps again changes nothing (`applyAll_again`).
-/

namespace SiteCompiler

open FileTree

namespace WriteStep

/-- What a step brings to the tree. -/
def Brings (step : WriteStep) (loc : Location) (entry : Entry) : Prop :=
  match step with
  | .makeDirectories dir => loc <+: dir.names ∧ entry = .directory
  | .write path text => loc = path.names ∧ entry = .file text.toUTF8

/-- The path of a step has no dots, and what is written is written to a file. -/
def IsPlain (step : WriteStep) : Prop :=
  match step with
  | .makeDirectories dir => dir.IsPlain
  | .write path _ => path.IsPlain ∧ Path.endsWithSeparator path.raw = false

theorem brings_directory_iff {step : WriteStep} {loc : Location} :
    step.Brings loc .directory ↔ ∃ dir, step = .makeDirectories dir ∧ loc <+: dir.names := by
  cases step with
  | makeDirectories dir =>
      constructor
      · intro h
        exact ⟨dir, rfl, h.1⟩
      · rintro ⟨_, heq, hloc⟩
        cases heq
        exact ⟨hloc, rfl⟩
  | write path text =>
      refine iff_of_false ?_ ?_
      · rintro ⟨-, h⟩
        cases h
      · rintro ⟨_, heq, -⟩
        cases heq

theorem brings_file_iff {step : WriteStep} {loc : Location} {bytes : ByteArray} :
    step.Brings loc (.file bytes) ↔
      ∃ path text, step = .write path text ∧ loc = path.names ∧ bytes = text.toUTF8 := by
  cases step with
  | makeDirectories dir =>
      refine iff_of_false ?_ ?_
      · rintro ⟨-, h⟩
        cases h
      · rintro ⟨_, _, heq, -⟩
        cases heq
  | write path text =>
      constructor
      · rintro ⟨hloc, hentry⟩
        exact ⟨path, text, rfl, hloc, Entry.file.inj hentry⟩
      · rintro ⟨_, _, heq, hloc, hbytes⟩
        cases heq
        exact ⟨hloc, by rw [hbytes]⟩

end WriteStep

namespace FileTree

variable {tree : FileTree} {step : WriteStep} {steps : List WriteStep} {loc : Location}
  {entry : Entry}

/-- What a run of steps brings. -/
def Brought (steps : List WriteStep) (loc : Location) (entry : Entry) : Prop :=
  ∃ step ∈ steps, step.Brings loc entry

theorem brought_nil : ¬ Brought [] loc entry := nofun

theorem brought_cons : Brought (step :: steps) loc entry ↔
    step.Brings loc entry ∨ Brought steps loc entry := by
  simp [Brought]

theorem brought_append {others : List WriteStep} : Brought (steps ++ others) loc entry ↔
    Brought steps loc entry ∨ Brought others loc entry := by
  simp [Brought, or_and_right, exists_or]

theorem Brought.mono {others : List WriteStep} (h : Brought steps loc entry)
    (hsubset : steps ⊆ others) : Brought others loc entry := by
  obtain ⟨step, hstep, hbrings⟩ := h
  exact ⟨step, hsubset hstep, hbrings⟩

theorem Plain.apply_changedBy (hplain : tree.Plain) (step : WriteStep) (hstep : step.IsPlain) :
    ChangedBy step.Brings tree (tree.apply step).1 ∧
    ((tree.apply step).2 = .ok () →
      ∀ loc entry, step.Brings loc entry → entry? (tree.apply step).1 loc = some entry) := by
  cases step with
  | makeDirectories dir =>
      obtain ⟨hchanged, hmade⟩ := hplain.makeDirectories_changedBy hstep
      refine ⟨hchanged, ?_⟩
      rintro hok loc entry ⟨hloc, rfl⟩
      exact hchanged.plain.entry?_of_isPrefix (hmade hok) hloc
  | write path text =>
      rw [apply]
      cases hwrite : tree.writeText path text with
      | error e => exact ⟨ChangedBy.refl hplain, nofun⟩
      | ok written =>
          obtain ⟨hchanged, hentry⟩ := hplain.writeText_changedBy hstep.1 hwrite
          refine ⟨hchanged, ?_⟩
          rintro - loc entry ⟨rfl, rfl⟩
          exact hentry

theorem applyAll_cons_of_ok {reached : FileTree} (h : tree.apply step = (reached, .ok ())) :
    tree.applyAll (step :: steps) = reached.applyAll steps := by
  rw [applyAll, h]

theorem applyAll_cons_of_error {reached : FileTree} {e : FileError}
    (h : tree.apply step = (reached, .error e)) :
    tree.applyAll (step :: steps) = (reached, .error e) := by
  rw [applyAll, h]

/-- A run that succeeds takes its first step and then the others. -/
theorem applyAll_cons_eq_ok_iff {written : FileTree} :
    tree.applyAll (step :: steps) = (written, .ok ()) ↔
      ∃ reached, tree.apply step = (reached, .ok ()) ∧
        reached.applyAll steps = (written, .ok ()) := by
  constructor
  · intro h
    cases happly : tree.apply step with
    | mk reached outcome =>
        cases outcome with
        | error e =>
            rw [applyAll_cons_of_error happly] at h
            cases h
        | ok => exact ⟨reached, rfl, (applyAll_cons_of_ok happly).symm.trans h⟩
  · rintro ⟨reached, happly, h⟩
    rw [applyAll_cons_of_ok happly, h]

/-- Writing succeeds or changes nothing. -/
theorem apply_write_cases (tree : FileTree) (path : Path) (text : String) :
    (∃ written, tree.apply (.write path text) = (written, .ok ())) ∨
      ∃ e, tree.apply (.write path text) = (tree, .error e) := by
  rw [apply]
  cases tree.writeText path text with
  | ok written => exact Or.inl ⟨written, rfl⟩
  | error e => exact Or.inr ⟨e, rfl⟩

/-- A run that is cut in two. -/
theorem applyAll_append (first second : List WriteStep) : tree.applyAll (first ++ second)
    = match tree.applyAll first with
      | (reached, .ok ()) => reached.applyAll second
      | (reached, .error e) => (reached, .error e) := by
  induction first generalizing tree with
  | nil => rfl
  | cons step first ih =>
      rw [List.cons_append, applyAll, applyAll]
      split
      · exact ih
      · rfl

theorem applyAll_append_of_ok {first second : List WriteStep} {reached : FileTree}
    (h : tree.applyAll first = (reached, .ok ())) :
    tree.applyAll (first ++ second) = reached.applyAll second := by
  rw [applyAll_append, h]

theorem applyAll_append_of_error {first second : List WriteStep} {reached : FileTree}
    {e : FileError} (h : tree.applyAll first = (reached, .error e)) :
    tree.applyAll (first ++ second) = (reached, .error e) := by
  rw [applyAll_append, h]

theorem applyAll_append_eq_ok_iff {first second : List WriteStep} {written : FileTree} :
    tree.applyAll (first ++ second) = (written, .ok ()) ↔
      ∃ reached, tree.applyAll first = (reached, .ok ()) ∧
        reached.applyAll second = (written, .ok ()) := by
  induction first generalizing tree with
  | nil =>
      constructor
      · exact fun h => ⟨tree, rfl, h⟩
      · rintro ⟨reached, hfirst, h⟩
        cases hfirst
        exact h
  | cons step first ih =>
      rw [List.cons_append, applyAll_cons_eq_ok_iff]
      simp only [ih, applyAll_cons_eq_ok_iff]
      constructor
      · rintro ⟨between, happly, reached, hfirst, h⟩
        exact ⟨reached, ⟨between, happly, hfirst⟩, h⟩
      · rintro ⟨reached, ⟨between, happly, hfirst⟩, h⟩
        exact ⟨between, happly, reached, hfirst, h⟩

/-- What a step that succeeds does to the tree. -/
theorem Plain.apply_eq_ok (hplain : tree.Plain) (hstep : step.IsPlain) {reached : FileTree}
    (h : tree.apply step = (reached, .ok ())) : ChangedBy step.Brings tree reached ∧
      ∀ loc entry, step.Brings loc entry → reached.entry? loc = some entry := by
  obtain ⟨hchanged, hthere⟩ := hplain.apply_changedBy step hstep
  rw [h] at hchanged hthere
  exact ⟨hchanged, hthere rfl⟩

/-- A run brings what its steps bring, whether or not it gets to its end. -/
theorem Plain.applyAll_changedBy (hplain : tree.Plain) (hsteps : ∀ step ∈ steps, step.IsPlain) :
    ChangedBy (Brought steps) tree (tree.applyAll steps).1 := by
  induction steps generalizing tree with
  | nil => exact ChangedBy.refl hplain
  | cons step steps ih =>
      have hhead : ChangedBy (Brought (step :: steps)) tree (tree.apply step).1 :=
        (hplain.apply_changedBy step (hsteps step List.mem_cons_self)).1.mono
          fun loc entry hbrings => brought_cons.2 (Or.inl hbrings)
      cases happly : tree.apply step with
      | mk reached outcome =>
          rw [happly] at hhead
          cases outcome with
          | error e =>
              rw [applyAll_cons_of_error happly]
              exact hhead
          | ok =>
              rw [applyAll_cons_of_ok happly]
              have htail := ih hhead.plain fun other hother =>
                hsteps other (List.mem_cons_of_mem step hother)
              exact hhead.trans (htail.mono fun loc entry hbrought =>
                brought_cons.2 (Or.inr hbrought))

/-- At every place to which something is brought there is something of its kind. -/
def Holds (tree : FileTree) (brought : Location → Entry → Prop) : Prop :=
  ∀ loc entry, brought loc entry →
    ∃ now, tree.entry? loc = some now ∧ (now = .directory ↔ entry = .directory)

theorem ChangedBy.holds {brought needed : Location → Entry → Prop} {changed : FileTree}
    (h : ChangedBy brought tree changed) (hholds : tree.Holds needed) : changed.Holds needed := by
  intro loc entry hneeded
  obtain ⟨before, hbefore, hkind⟩ := hholds loc entry hneeded
  obtain ⟨now, hnow, hkind'⟩ := h.stays loc before hbefore
  exact ⟨now, hnow, hkind'.trans hkind⟩

theorem Holds.directory {brought : Location → Entry → Prop} (h : tree.Holds brought)
    (hbrought : brought loc .directory) : tree.entry? loc = some .directory := by
  obtain ⟨now, hnow, hkind⟩ := h loc _ hbrought
  rw [hnow, hkind.2 rfl]

theorem Holds.file {brought : Location → Entry → Prop} (h : tree.Holds brought)
    (hplain : tree.Plain) {bytes : ByteArray} (hbrought : brought loc (.file bytes)) :
    ∃ now, tree.entry? loc = some (.file now) := by
  obtain ⟨now, hnow, hkind⟩ := h loc _ hbrought
  cases now with
  | file now => exact ⟨now, hnow⟩
  | directory => cases hkind.1 rfl
  | link target => exact absurd hnow (hplain.entry?_ne_link target)

/-- A run that succeeds brings what its steps bring. -/
theorem Plain.changedBy_of_applyAll (hplain : tree.Plain) (hsteps : ∀ step ∈ steps, step.IsPlain)
    {written : FileTree} (hrun : tree.applyAll steps = (written, .ok ())) :
    ChangedBy (Brought steps) tree written := by
  have hchanged := hplain.applyAll_changedBy hsteps
  rwa [hrun] at hchanged

/-- What a successful run brings is there at its end. -/
theorem Plain.holds_applyAll (hplain : tree.Plain) (hsteps : ∀ step ∈ steps, step.IsPlain)
    {written : FileTree} (hrun : tree.applyAll steps = (written, .ok ())) :
    written.Holds (Brought steps) := by
  induction steps generalizing tree with
  | nil => exact fun loc entry hbrought => absurd hbrought brought_nil
  | cons step steps ih =>
      obtain ⟨hstep, htail⟩ := List.forall_mem_cons.1 hsteps
      obtain ⟨reached, happly, hrun⟩ := applyAll_cons_eq_ok_iff.1 hrun
      obtain ⟨hchanged, hthere⟩ := hplain.apply_eq_ok hstep happly
      intro loc entry hbrought
      rcases brought_cons.1 hbrought with hbrings | hbrought
      · -- Brought by the first step, and the others leave a thing of its kind.
        exact (hchanged.plain.changedBy_of_applyAll htail hrun).stays loc entry
          (hthere loc entry hbrings)
      · exact ih hchanged.plain htail hrun loc entry hbrought

/-- A file holds what was written to its place last. -/
theorem Plain.entry?_applyAll_write (hplain : tree.Plain) {path : Path} {text : String}
    {before after : List WriteStep}
    (hsteps : ∀ step ∈ before ++ .write path text :: after, step.IsPlain) {written : FileTree}
    (hrun : tree.applyAll (before ++ .write path text :: after) = (written, .ok ()))
    (hlast : ∀ bytes, ¬ Brought after path.names (.file bytes)) :
    written.entry? path.names = some (.file text.toUTF8) := by
  obtain ⟨hbefore, hrest⟩ := List.forall_mem_append.1 hsteps
  obtain ⟨hwrite, hafter⟩ := List.forall_mem_cons.1 hrest
  obtain ⟨reached, hfirst, hrun⟩ := applyAll_append_eq_ok_iff.1 hrun
  obtain ⟨changed, happly, hrun⟩ := applyAll_cons_eq_ok_iff.1 hrun
  have hreached := hplain.changedBy_of_applyAll hbefore hfirst
  obtain ⟨hchanged, hthere⟩ := hreached.plain.apply_eq_ok hwrite happly
  exact (hchanged.plain.changedBy_of_applyAll hafter hrun).file (hthere _ _ ⟨rfl, rfl⟩)
    fun other hother => absurd hother (hlast other)

/-! ## Taking steps again -/

/-- A step can be taken where what it brings stands already, and makes no new place. -/
theorem Plain.apply_of_holds (hplain : tree.Plain) (hstep : step.IsPlain)
    (hholds : tree.Holds step.Brings) : ∃ changed, tree.apply step = (changed, .ok ()) ∧
      changed.entries.map Prod.fst = tree.entries.map Prod.fst := by
  cases step with
  | makeDirectories dir =>
      have hdirectory : tree.entry? dir.names = some .directory :=
        hholds.directory ⟨List.prefix_rfl, rfl⟩
      exact ⟨tree, hplain.makeDirectories_of_entry hstep hdirectory, rfl⟩
  | write path text =>
      obtain ⟨old, hold⟩ : ∃ old, tree.entry? path.names = some (.file old) :=
        hholds.file hplain ⟨rfl, rfl⟩
      have hne : path.names ≠ [] := by
        intro hnil
        rw [hnil, entry?_nil] at hold
        cases hold
      refine ⟨tree.put path.names (.file text.toUTF8), ?_, hplain.map_fst_put hne hold⟩
      rw [apply, hplain.writeText_of_file hstep.1 hstep.2 hold]

theorem Plain.applyAll_of_holds (hplain : tree.Plain) (hsteps : ∀ step ∈ steps, step.IsPlain)
    (hholds : tree.Holds (Brought steps)) : ∃ changed, tree.applyAll steps = (changed, .ok ()) ∧
      changed.entries.map Prod.fst = tree.entries.map Prod.fst := by
  induction steps generalizing tree with
  | nil => exact ⟨tree, rfl, rfl⟩
  | cons step steps ih =>
      obtain ⟨hstep, htail⟩ := List.forall_mem_cons.1 hsteps
      obtain ⟨reached, happly, hkeys⟩ := hplain.apply_of_holds hstep fun loc entry hbrings =>
        hholds loc entry (brought_cons.2 (Or.inl hbrings))
      have hchanged := (hplain.apply_changedBy step hstep).1
      rw [happly] at hchanged
      have hrest : reached.Holds (Brought steps) := hchanged.holds fun loc entry hbrought =>
        hholds loc entry (brought_cons.2 (Or.inr hbrought))
      obtain ⟨changed, hrun, hkeys'⟩ := ih hchanged.plain htail hrest
      exact ⟨changed, (applyAll_cons_of_ok happly).trans hrun, hkeys'.trans hkeys⟩

/-- Where steps bring something, two runs of them leave the same. -/
theorem Plain.entry?_applyAll_eq {tree' written written' : FileTree} (hplain : tree.Plain)
    (hplain' : tree'.Plain) (hsteps : ∀ step ∈ steps, step.IsPlain)
    (hrun : tree.applyAll steps = (written, .ok ()))
    (hrun' : tree'.applyAll steps = (written', .ok ())) (hbrought : Brought steps loc entry) :
    written'.entry? loc = written.entry? loc := by
  induction steps generalizing tree tree' entry with
  | nil => exact absurd hbrought brought_nil
  | cons step steps ih =>
      obtain ⟨hstep, htail⟩ := List.forall_mem_cons.1 hsteps
      obtain ⟨reached, happly, hrun⟩ := applyAll_cons_eq_ok_iff.1 hrun
      obtain ⟨reached', happly', hrun'⟩ := applyAll_cons_eq_ok_iff.1 hrun'
      obtain ⟨hchanged, hthere⟩ := hplain.apply_eq_ok hstep happly
      obtain ⟨hchanged', hthere'⟩ := hplain'.apply_eq_ok hstep happly'
      by_cases hlater : ∃ now, Brought steps loc now
      · obtain ⟨now, hnow⟩ := hlater
        exact ih hchanged.plain hchanged'.plain htail hrun hrun' hnow
      · -- The first step brings it, and it stays.
        have hbrings := (brought_cons.1 hbrought).resolve_right fun h => hlater ⟨entry, h⟩
        have hno : ∀ now, ¬ Brought steps loc now := fun now hnow => hlater ⟨now, hnow⟩
        have hrest := hchanged.plain.changedBy_of_applyAll htail hrun
        have hrest' := hchanged'.plain.changedBy_of_applyAll htail hrun'
        rw [hrest.entry?_eq hno, hrest'.entry?_eq hno, hthere loc entry hbrings,
          hthere' loc entry hbrings]

/-- Taking steps again after they have succeeded changes nothing. -/
theorem Plain.applyAll_again (hplain : tree.Plain) (hsteps : ∀ step ∈ steps, step.IsPlain)
    {written : FileTree} (hrun : tree.applyAll steps = (written, .ok ())) :
    written.applyAll steps = (written, .ok ()) := by
  have hwritten := (hplain.changedBy_of_applyAll hsteps hrun).plain
  obtain ⟨again, hagain, hkeys⟩ :=
    hwritten.applyAll_of_holds hsteps (hplain.holds_applyAll hsteps hrun)
  have hchanged := hwritten.changedBy_of_applyAll hsteps hagain
  have hsame : again = written := by
    refine hwritten.toSound.eq_of_entry? hchanged.plain.toSound hkeys fun loc => ?_
    by_cases hbrought : ∃ entry, Brought steps loc entry
    · obtain ⟨entry, hbrought⟩ := hbrought
      exact hplain.entry?_applyAll_eq hwritten hsteps hrun hagain hbrought
    · exact hchanged.entry?_eq fun entry h => hbrought ⟨entry, h⟩
  rw [hagain, hsame]

end FileTree

end SiteCompiler
