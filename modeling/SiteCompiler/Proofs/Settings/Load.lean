import SiteCompiler.Proofs.Sequence
import SiteCompiler.Proofs.Settings.Group
import SiteCompiler.Proofs.Toml.Distinct
import SiteCompiler.Settings.Load
import Mathlib.Data.List.Nodup
set_option autoImplicit false

/-! # The defaults and a document over them

A configuration file is read key by key, and the first key or value that is not one of the settings
is the error. Otherwise each setting is what the document gives for it, or its default, whatever the
order of the keys, and what comes out has to be usable as a whole (`load_configured`). Of the reader
only that is used which TOML asks for: no table defines a key twice (`KeepsKeysDistinct`).
-/

namespace SiteCompiler.Settings

open Toml (Value)

/-- The groups of settings with their keys. -/
def declared : List (String × List (String × Expected)) :=
  [("paths", pathsKeys), ("css", cssKeys), ("processing", processingKeys)]

/-- The keys of a group. -/
def known (group : String) : List (String × Expected) := (declared.lookup group).getD []

/-! ## What a document says -/

/-- A piece of a document: that a key stands at the top, or that a value is given for a key in a
table at the top. -/
inductive Entry where
  | top (key : String)
  | setting (group key : String) (v : Value)

/-- What a field at the top of a document says. -/
def entriesOf : String × Value → List Entry
  | (key, .table inner) => .top key :: inner.map fun field => .setting key field.1 field.2
  | (key, _) => [.top key]

/-- What a document says, in its order. -/
def entries (fields : List (String × Value)) : List Entry := fields.flatMap entriesOf

/-- A group that there is, or a setting of a group with a value of its kind. -/
def Entry.Good : Entry → Prop
  | .top key => key ∈ declared.map Prod.fst
  | .setting group key v => ∃ kind, (known group).lookup key = some kind ∧ kind.Fits v

/-- What is wrong with a piece of a document. -/
def Entry.fault? : Entry → Option DecodeError
  | .top key =>
      if key ∈ declared.map Prod.fst then none
      else some (.unknownField key (declared.map Prod.fst))
  | .setting group key v => fieldFault? (known group) (key, v)

theorem Entry.fault?_eq_none_iff {entry : Entry} : entry.fault? = none ↔ entry.Good := by
  cases entry with
  | top key => rw [fault?, ite_eq_left_iff, Good]; simp
  | setting group key v =>
      rw [fault?, fieldFault?, Good]
      cases (known group).lookup key with
      | none => simp
      | some kind => simp [Expected.fault?_eq_none_iff]

/-- What stands in the table of a group; nothing if there is none. -/
def below (fields : List (String × Value)) (group : String) : List (String × Value) :=
  match fields.lookup group with
  | some (.table inner) => inner
  | _ => []

/-- The settings that a document gives, and the defaults for all others. -/
def filled (fields : List (String × Value)) : SiteSettings where
  paths := fillPaths (below fields "paths") .default
  css := fillCss (below fields "css") .default
  processing := fillProcessing (below fields "processing") .default

/-- Each group in a document is written as a table. -/
def GroupsAreTables (fields : List (String × Value)) : Prop :=
  ∀ field ∈ fields, field.1 ∈ declared.map Prod.fst → ∃ inner, field.2 = .table inner

/-! ## The document as a group of groups -/

/-- What a table is read as. -/
def table? {β : Type} (read : List (String × Value) → β) : Value → Option β
  | .table inner => some (read inner)
  | _ => none

/-- The groups that fields give, and otherwise those that are there. -/
def fillSite (fields : List (String × Value)) (s : SiteSettings) : SiteSettings where
  paths := setting fields "paths" (table? (fillPaths · .default)) s.paths
  css := setting fields "css" (table? (fillCss · .default)) s.css
  processing := setting fields "processing" (table? (fillProcessing · .default)) s.processing

/-- A change for a group refuses a table for its first fault or else fills the group. -/
def ChangesGroup (key : String) (change : Value → SiteSettings → Except DecodeError SiteSettings)
    (keys : List (String × Expected)) : Prop :=
  ∀ inner settings, (inner.map Prod.fst).Nodup → change (.table inner) settings
    = unlessFault (inner.findSome? (fieldFault? keys)) (fillSite [(key, .table inner)] settings)

theorem siteGroup_changes :
    List.Forall₂ (fun entry keys => entry.1 = keys.1 ∧ ChangesGroup entry.1 entry.2 keys.2)
      siteGroup.fields declared := by
  refine .cons ⟨rfl, fun inner s h => ?_⟩ (.cons ⟨rfl, fun inner s h => ?_⟩
    (.cons ⟨rfl, fun inner s h => ?_⟩ .nil))
  · exact bind_unlessFault (pathsGroup_takes.setAll_eq h (fun _ _ => trivial) .default) _
  · exact bind_unlessFault (cssGroup_takes.setAll_eq h (fun _ _ => trivial) .default) _
  · exact bind_unlessFault (processingGroup_takes.setAll_eq h (fun _ _ => trivial) .default) _

theorem Entry.fault?_top_of_notMem {key : String} (h : key ∉ declared.map Prod.fst) :
    (Entry.top key).fault? = some (.unknownField key (declared.map Prod.fst)) := if_neg h

/-- A key that is not known is the first fault of what stands there. -/
theorem findSome?_entriesOf_of_notMem {field : String × Value}
    (h : field.1 ∉ declared.map Prod.fst) : (entriesOf field).findSome? Entry.fault?
      = some (.unknownField field.1 (declared.map Prod.fst)) := by
  rw [entriesOf.eq_def]
  split <;> rw [List.findSome?_cons, Entry.fault?_top_of_notMem h]

theorem findSome?_entriesOf_table {key : String} {keys : List (String × Expected)}
    (h : declared.lookup key = some keys) (inner : List (String × Value)) :
    (entriesOf (key, .table inner)).findSome? Entry.fault?
      = inner.findSome? (fieldFault? keys) := by
  have htop : (Entry.top key).fault? = none :=
    Entry.fault?_eq_none_iff.2 (Lookup.isSome_lookup_iff.1 (h ▸ rfl))
  have hknown : known key = keys := by rw [known, h, Option.getD_some]
  rw [entriesOf, List.findSome?_cons, htop, List.findSome?_map]
  refine congrArg (inner.findSome? ·) (funext fun field => ?_)
  rw [Function.comp_apply, Entry.fault?, hknown]

/-- A field with the key of a group has a table with distinct keys. -/
def IsGroup (field : String × Value) : Prop :=
  field.1 ∈ declared.map Prod.fst → ∃ inner, field.2 = .table inner ∧ (inner.map Prod.fst).Nodup

theorem siteGroup_set_eq (settings : SiteSettings) (field : String × Value) (h : IsGroup field) :
    siteGroup.set settings field
      = unlessFault ((entriesOf field).findSome? Entry.fault?) (fillSite [field] settings) := by
  obtain ⟨key, v⟩ := field
  have hrel := Lookup.lookup_rel siteGroup_changes key
  rw [Group.set]
  generalize siteGroup.fields.lookup key = change? at hrel ⊢
  generalize hkeys : declared.lookup key = keys? at hrel
  cases hrel with
  | none =>
      -- Neither the group of groups nor their table of keys has such a group.
      rw [findSome?_entriesOf_of_notMem (Lookup.lookup_eq_none_iff_notMem.1 hkeys)]
      rfl
  | some hentry =>
      obtain ⟨inner, rfl, hnodup⟩ := h (Lookup.isSome_lookup_iff.1 (hkeys ▸ rfl))
      rw [findSome?_entriesOf_table hkeys]
      exact hentry inner settings hnodup

theorem siteGroup_takes :
    siteGroup.Takes IsGroup (fun field => (entriesOf field).findSome? Entry.fault?) fillSite where
  set_eq := siteGroup_set_eq
  nil := fun _ => rfl
  cons := fun s field fields h => by simp only [fillSite, setting_cons h]

theorem findSome?_flatMap {α β γ : Type} (f : α → List β) (p : β → Option γ) (xs : List α) :
    (xs.flatMap f).findSome? p = xs.findSome? fun x => (f x).findSome? p := by
  induction xs with
  | nil => rfl
  | cons x xs ih =>
      rw [List.flatMap_cons, List.findSome?_append, List.findSome?_cons, ih]
      cases (f x).findSome? p <;> rfl

/-- A group that is filled from its table, or else is the default, is filled from what stands below
its key. -/
theorem setting_table {α : Type} {fill : List (String × Value) → α → α} {default : α}
    (hnil : fill [] default = default) (fields : List (String × Value)) (group : String) :
    setting fields group (table? (fill · default)) default = fill (below fields group) default := by
  rw [setting, below]
  cases fields.lookup group with
  | none => exact hnil.symm
  | some v =>
      cases v with
      | table inner => rfl
      | _ => exact hnil.symm

theorem fillSite_eq_filled (fields : List (String × Value)) :
    fillSite fields .default = filled fields := by
  rw [fillSite, filled]
  congr 1
  · exact setting_table rfl fields "paths"
  · exact setting_table rfl fields "css"
  · exact setting_table rfl fields "processing"

theorem nodup_of_mem {fields inner : List (String × Value)} {group : String}
    (hdistinct : (Value.table fields).Distinct) (h : (group, .table inner) ∈ fields) :
    (inner.map Prod.fst).Nodup := by
  have hinner := (Value.distinct_table_iff.1 hdistinct).2 _ h
  exact (Value.distinct_table_iff.1 hinner).1

/-- The settings of a document are what it gives over the defaults, unless it has a fault. -/
theorem ofDocument_eq {fields : List (String × Value)} (hdistinct : (Value.table fields).Distinct)
    (htables : GroupsAreTables fields) :
    ofDocument fields = unlessFault ((entries fields).findSome? Entry.fault?) (filled fields) := by
  have hgroups : ∀ field ∈ fields, IsGroup field := by
    rintro ⟨group, v⟩ hfield hgroup
    obtain ⟨inner, rfl⟩ := htables _ hfield hgroup
    exact ⟨inner, rfl, nodup_of_mem hdistinct hfield⟩
  have hnodup := (Value.distinct_table_iff.1 hdistinct).1
  rw [ofDocument, siteGroup_takes.setAll_eq hnodup hgroups, fillSite_eq_filled, entries,
    findSome?_flatMap]

/-! ## The order of a document -/

/-- The same value, save for the order in a table. -/
def SameValue (v v' : Value) : Prop :=
  v = v' ∨ ∃ inner inner', v = .table inner ∧ v' = .table inner' ∧ inner.Perm inner'

/-- The same fields in another order, and so in the tables at the top. -/
def Reordered (fields fields' : List (String × Value)) : Prop :=
  ∃ middle, fields.Perm middle ∧
    List.Forall₂ (fun field field' => field.1 = field'.1 ∧ SameValue field.2 field'.2)
      middle fields'

section Reordered

variable {fields fields' : List (String × Value)}

theorem setting_perm {β : Type} (hnodup : (fields.map Prod.fst).Nodup)
    (hperm : fields.Perm fields') (key : String) (read? : Value → Option β) (old : β) :
    setting fields key read? old = setting fields' key read? old := by
  rw [setting, setting, Lookup.lookup_perm hnodup hperm]

theorem SameValue.table_iff {v v' : Value} (h : SameValue v v') :
    (∃ inner, v = .table inner) ↔ ∃ inner, v' = .table inner := by
  rcases h with rfl | ⟨inner, inner', rfl, rfl, -⟩
  · exact Iff.rfl
  · exact iff_of_true ⟨inner, rfl⟩ ⟨inner', rfl⟩

theorem Reordered.groupsAreTables (h : Reordered fields fields')
    (htables : GroupsAreTables fields) : GroupsAreTables fields' := by
  obtain ⟨middle, hperm, hsame⟩ := h
  intro field' hfield' hgroup
  obtain ⟨field, hfield, hkey, hvalue⟩ := Sequence.exists_of_mem_right hsame hfield'
  exact hvalue.table_iff.1 (htables field (hperm.mem_iff.2 hfield) (hkey ▸ hgroup))

theorem Reordered.below_perm (h : Reordered fields fields') (hnodup : (fields.map Prod.fst).Nodup)
    (group : String) : (below fields group).Perm (below fields' group) := by
  obtain ⟨middle, hperm, hsame⟩ := h
  have hrel := Lookup.lookup_rel (R := fun _ => SameValue) hsame group
  rw [below, below, Lookup.lookup_perm hnodup hperm]
  generalize middle.lookup group = v? at hrel ⊢
  generalize fields'.lookup group = v'? at hrel ⊢
  cases hrel with
  | none => exact .refl _
  | some hvalue =>
      rcases hvalue with rfl | ⟨inner, inner', rfl, rfl, hinner⟩
      · exact .refl _
      · exact hinner

theorem below_nodup (hdistinct : (Value.table fields).Distinct) (group : String) :
    ((below fields group).map Prod.fst).Nodup := by
  rw [below]
  split
  · next inner hinner => exact nodup_of_mem hdistinct (Lookup.mem_of_lookup hinner)
  · exact List.nodup_nil

theorem Reordered.filled_eq (h : Reordered fields fields')
    (hdistinct : (Value.table fields).Distinct) : filled fields = filled fields' := by
  have hnodup := (Value.distinct_table_iff.1 hdistinct).1
  have hsetting : ∀ {β : Type} (group key : String) (read? : Value → Option β) (old : β),
      setting (below fields group) key read? old = setting (below fields' group) key read? old :=
    fun group => setting_perm (below_nodup hdistinct group) (h.below_perm hnodup group)
  simp only [filled, fillPaths, fillCss, fillProcessing, hsetting]

theorem entriesOf_perm {field field' : String × Value} (hkey : field.1 = field'.1)
    (hvalue : SameValue field.2 field'.2) : (entriesOf field).Perm (entriesOf field') := by
  obtain ⟨key, v⟩ := field
  obtain ⟨key', v'⟩ := field'
  cases hkey
  rcases hvalue with rfl | ⟨inner, inner', rfl, rfl, hinner⟩
  · exact .refl _
  · exact (hinner.map _).cons _

theorem Reordered.entries_perm (h : Reordered fields fields') :
    (entries fields).Perm (entries fields') := by
  obtain ⟨middle, hperm, hsame⟩ := h
  -- The fields are put into the other order first, and then what stands in each of them.
  refine (hperm.flatMap_right entriesOf).trans ?_
  clear hperm
  induction hsame with
  | nil => exact .refl _
  | cons hfield _ ih => exact (entriesOf_perm hfield.1 hfield.2).append ih

end Reordered

/-! ## Usable settings -/

/-- A path that is given: not all of it is blank. -/
def IsGiven (path : String) : Prop := ∃ c ∈ path.toList, isBlank c = false

/-- All places are given, and what is noted is not above what is warned about. -/
structure Usable (s : SiteSettings) : Prop where
  pages : IsGiven s.paths.pages
  templates : IsGiven s.paths.templates
  candidates : IsGiven s.paths.candidates
  aboveTheFold : IsGiven s.paths.aboveTheFold
  notice_le_warn : s.css.noticeBytes ≤ s.css.warnBytes

theorem isBlankPath_eq_false_iff {path : String} :
    SiteSettings.isBlankPath path = false ↔ IsGiven path := by
  rw [SiteSettings.isBlankPath, List.all_eq_false, IsGiven]
  simp

theorem fault?_eq_none_iff_usable {s : SiteSettings} : s.fault? = none ↔ Usable s := by
  have hpaths : (s.namedPaths.find? fun path => SiteSettings.isBlankPath path.2) = none ↔
      IsGiven s.paths.pages ∧ IsGiven s.paths.templates ∧ IsGiven s.paths.candidates ∧
        IsGiven s.paths.aboveTheFold := by
    simp [SiteSettings.namedPaths, isBlankPath_eq_false_iff]
  rw [SiteSettings.fault?]
  split
  · next path hpath =>
      refine iff_of_false nofun fun h => ?_
      have hnone := hpaths.2 ⟨h.pages, h.templates, h.candidates, h.aboveTheFold⟩
      rw [hnone] at hpath
      cases hpath
  · next hnone =>
      obtain ⟨hpages, htemplates, hcandidates, habove⟩ := hpaths.1 hnone
      rw [ite_eq_right_iff]
      constructor
      · intro h
        have hle := Nat.not_lt.1 fun hlt => nomatch h hlt
        exact ⟨hpages, htemplates, hcandidates, habove, hle⟩
      · exact fun h hlt => absurd h.notice_le_warn (Nat.not_le.2 hlt)

theorem usable_default : Usable .default := fault?_eq_none_iff_usable.1 (by decide +kernel)

theorem checked_eq_ok_iff {s s' : SiteSettings} : s.checked = .ok s' ↔ Usable s ∧ s = s' := by
  rw [SiteSettings.checked, ← fault?_eq_none_iff_usable]
  cases s.fault? with
  | some fault => exact iff_of_false nofun fun h => nomatch h.1
  | none => exact ⟨fun h => ⟨rfl, Except.ok.inj h⟩, fun h => congrArg Except.ok h.2⟩

/-! ## Loading -/

/-- A reader in whose documents no table defines a key twice. -/
def KeepsKeysDistinct (read : String → Option (List (String × Value))) : Prop :=
  ∀ text fields, read text = some fields → (Value.table fields).Distinct

/-- The configuration file at a source root holds a document with these fields. -/
def Configured (read : String → Option (List (String × Value))) (tree : FileTree)
    (srcRoot : Path) (fields : List (String × Value)) : Prop :=
  tree.pathExists (srcRoot.join SiteSettings.fileName) = true ∧
    ∃ text, tree.readText (srcRoot.join SiteSettings.fileName) = .ok text ∧
      read text = some fields

section Load

variable {read : String → Option (List (String × Value))} {tree : FileTree} {srcRoot : Path}
  {fields : List (String × Value)}

theorem Configured.distinct (h : Configured read tree srcRoot fields)
    (hread : KeepsKeysDistinct read) : (Value.table fields).Distinct := by
  obtain ⟨-, text, -, htext⟩ := h
  exact hread text fields htext

/-- The document is read to its end before the settings are checked. -/
theorem Configured.load_eq (h : Configured read tree srcRoot fields)
    (hread : KeepsKeysDistinct read) (htables : GroupsAreTables fields) :
    SiteSettings.load read tree srcRoot =
      match (entries fields).findSome? Entry.fault? with
      | some e => .error (.undecodable e)
      | none => (filled fields).checked := by
  have hdocument := ofDocument_eq (h.distinct hread) htables
  obtain ⟨hexists, text, htext, hfields⟩ := h
  simp only [SiteSettings.load, hexists, htext, SiteSettings.ofText, hfields, hdocument]
  cases (entries fields).findSome? Entry.fault? <;> rfl

theorem Configured.load_eq_ok_iff (h : Configured read tree srcRoot fields)
    (hread : KeepsKeysDistinct read) (htables : GroupsAreTables fields) {s : SiteSettings} :
    SiteSettings.load read tree srcRoot = .ok s ↔
      (∀ entry ∈ entries fields, entry.Good) ∧ Usable (filled fields) ∧ filled fields = s := by
  have hgood : (entries fields).findSome? Entry.fault? = none ↔
      ∀ entry ∈ entries fields, entry.Good := by
    simp only [List.findSome?_eq_none_iff, Entry.fault?_eq_none_iff]
  rw [h.load_eq hread htables, ← hgood, ← checked_eq_ok_iff]
  cases (entries fields).findSome? Entry.fault? with
  | some e => exact iff_of_false nofun fun h => nomatch h.1
  | none => exact ⟨fun h => ⟨rfl, h⟩, And.right⟩

/-- A document that says nothing is as good as none. -/
theorem Configured.load_empty (h : Configured read tree srcRoot [])
    (hread : KeepsKeysDistinct read) : SiteSettings.load read tree srcRoot = .ok .default := by
  have htables : GroupsAreTables [] := fun _ hfield => absurd hfield List.not_mem_nil
  have hentries : ∀ entry ∈ entries [], entry.Good := fun _ hentry =>
    absurd hentry List.not_mem_nil
  exact (h.load_eq_ok_iff hread htables).2 ⟨hentries, usable_default, rfl⟩

/-- The settings at a source root are the defaults with a document over them. -/
structure Overridden (read : String → Option (List (String × Value))) (tree : FileTree)
    (srcRoot : Path) (fields : List (String × Value)) : Prop where
  /-- There are settings exactly if everything that the document says is good and what comes out is
  usable. -/
  exists_iff : (∃ s, SiteSettings.load read tree srcRoot = .ok s) ↔
    (∀ entry ∈ entries fields, entry.Good) ∧ Usable (filled fields)
  eq_filled : ∀ s, SiteSettings.load read tree srcRoot = .ok s → s = filled fields
  /-- The order of the groups, and of the keys in them, does not matter. -/
  reordered : ∀ {tree' : FileTree} {srcRoot' : Path} {fields' : List (String × Value)},
    Configured read tree' srcRoot' fields' → Reordered fields fields' →
      ∀ s, SiteSettings.load read tree srcRoot = .ok s ↔
        SiteSettings.load read tree' srcRoot' = .ok s
  /-- The first piece that is not good is the error, whatever comes after it. -/
  first_bad : ∀ before bad after, entries fields = before ++ bad :: after →
    (∀ entry ∈ before, entry.Good) → ¬ bad.Good →
      ∃ e, bad.fault? = some e ∧ SiteSettings.load read tree srcRoot = .error (.undecodable e)

/-- **Defaults under a document.** Where the configuration file holds a document that writes groups
as tables, the settings are the defaults with that document over them. -/
theorem load_configured (hread : KeepsKeysDistinct read)
    (hfile : Configured read tree srcRoot fields) (htables : GroupsAreTables fields) : Overridden read tree srcRoot fields where
  exists_iff := by
    simp only [hfile.load_eq_ok_iff hread htables, exists_and_left, exists_eq', and_true]
  eq_filled := fun s hs => ((hfile.load_eq_ok_iff hread htables).1 hs).2.2.symm
  reordered := by
    intro tree' srcRoot' fields' hfile' hreordered s
    rw [hfile.load_eq_ok_iff hread htables,
      hfile'.load_eq_ok_iff hread (hreordered.groupsAreTables htables),
      hreordered.filled_eq (hfile.distinct hread)]
    simp only [hreordered.entries_perm.mem_iff]
  first_bad := by
    intro before bad after hentries hbefore hbad
    obtain ⟨e, he⟩ := Option.ne_none_iff_exists'.1 (mt Entry.fault?_eq_none_iff.1 hbad)
    have hnone : before.findSome? Entry.fault? = none :=
      List.findSome?_eq_none_iff.2 fun entry hentry =>
        Entry.fault?_eq_none_iff.2 (hbefore entry hentry)
    refine ⟨e, he, ?_⟩
    rw [hfile.load_eq hread htables, hentries, List.findSome?_append, hnone, Option.none_or,
      List.findSome?_cons, he]

end Load

def narrowText : String := "[css]\nwarn_bytes = 1024\nnotice_bytes = 512\n"

def narrowFields : List (String × Value) :=
  [("css", .table [("warn_bytes", .integer 1024), ("notice_bytes", .integer 512)])]

def narrowTree : FileTree where
  entries := [(["config.toml"], .file narrowText.toUTF8)]

/-- Whether fields are `narrowFields`, which equality of values does not decide. -/
def isNarrow : List (String × Value) → Bool
  | [(group, .table [(key, .integer n), (key', .integer n')])] =>
      decide ((group, key, n, key', n') = ("css", "warn_bytes", 1024, "notice_bytes", 512))
  | _ => false

theorem eq_of_isNarrow {fields : List (String × Value)} (h : isNarrow fields = true) :
    fields = narrowFields := by
  unfold isNarrow at h
  split at h
  · cases of_decide_eq_true h
    rfl
  · cases h

theorem read?_narrowText : Toml.read? narrowText = some narrowFields := by
  have hread : (Toml.read? narrowText).any isNarrow = true := by decide +kernel
  obtain ⟨fields, hfields, hnarrow⟩ := (Option.any_eq_true _ _).1 hread
  rw [hfields, eq_of_isNarrow hnarrow]

/-- A document that lowers both sizes, the greater one first. -/
theorem load_configured_narrow : KeepsKeysDistinct Toml.read? ∧
    Configured Toml.read? narrowTree ⟨""⟩ narrowFields ∧ GroupsAreTables narrowFields ∧
    Overridden Toml.read? narrowTree ⟨""⟩ narrowFields := by
  have hread : KeepsKeysDistinct Toml.read? := fun _ _ => Toml.read?_distinct
  have hfile : Configured Toml.read? narrowTree ⟨""⟩ narrowFields :=
    ⟨by decide +kernel, narrowText, by decide +kernel, read?_narrowText⟩
  have htables : GroupsAreTables narrowFields := by
    intro field hfield _
    rw [List.mem_singleton.1 hfield]
    exact ⟨_, rfl⟩
  exact ⟨hread, hfile, htables, load_configured hread hfile htables⟩

/-- One size alone can be at odds with the default of the other. -/
example : SiteSettings.ofText Toml.read? "[css]\nwarn_bytes = 1024\n"
    = .error (.invalid .noticeAboveWarning) := by
  decide +kernel

end SiteCompiler.Settings
