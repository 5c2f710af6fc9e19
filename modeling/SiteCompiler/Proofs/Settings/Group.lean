import SiteCompiler.Proofs.Lookup
import SiteCompiler.Settings.Decode
set_option autoImplicit false

/-! # Groups of settings

The keys of a group are taken one after another, each changing the settings that are there. Read as
a whole this comes to less: what is wrong with a key does not depend on the settings so far, so the
run fails with the first fault of a key or not at all (`Group.Takes.setAll_eq`), and if it does not
fail, each setting is the value of its key or, without one, what it was (`setting`).
-/

namespace SiteCompiler.Settings

open Toml (Value)

/-! ## Kinds of values -/

/-- The values of a kind. -/
def Expected.Fits : Expected → Value → Prop
  | .text, v => ∃ text, v = .string text
  | .boolean, v => ∃ b, v = .boolean b
  | .size, v => ∃ n : Nat, v = .integer n
  | .group _, v => ∃ fields, v = .table fields

/-- What is wrong with a value of which a kind is expected. -/
def Expected.fault? : Expected → Value → Option DecodeError
  | .text, .string _ => none
  | .boolean, .boolean _ => none
  | .size, .integer n =>
      if n < 0 then some (.invalidValue (found (.integer n)) .size) else none
  | .group _, .table _ => none
  | kind, v => some (.invalidType (found v) kind)

theorem Expected.fault?_eq_none_iff {kind : Expected} {v : Value} :
    kind.fault? v = none ↔ kind.Fits v := by
  cases kind <;> cases v <;> simp [fault?, Fits]
  case size n => exact ⟨Int.eq_ofNat_of_zero_le, fun ⟨m, hm⟩ => hm ▸ Int.natCast_nonneg m⟩

/-- What is wrong with a key and its value where these keys are known. -/
def fieldFault? (known : List (String × Expected)) (field : String × Value) : Option DecodeError :=
  match known.lookup field.1 with
  | none => some (.unknownField field.1 (known.map Prod.fst))
  | some kind => kind.fault? field.2

/-- The text of a value. -/
def text? : Value → Option String
  | .string text => some text
  | _ => none

/-- The boolean of a value. -/
def boolean? : Value → Option Bool
  | .boolean b => some b
  | _ => none

/-- The size of a value. -/
def size? : Value → Option Nat
  | .integer n => some n.toNat
  | _ => none

/-! ## Settings -/

/-- The setting that the value of a key gives, or else the one that is there. -/
def setting {β : Type} (fields : List (String × Value)) (key : String) (read? : Value → Option β)
    (old : β) : β :=
  ((fields.lookup key).bind read?).getD old

section Setting

variable {β : Type} {fields : List (String × Value)} {key : String} {read? : Value → Option β}
  {old : β}

theorem setting_cons_self (v : Value) :
    setting ((key, v) :: fields) key read? old = (read? v).getD old := by
  rw [setting, List.lookup_cons_self, Option.bind_some]

theorem setting_cons_of_ne {field : String × Value} (h : key ≠ field.1) :
    setting (field :: fields) key read? old = setting fields key read? old := by
  rw [setting, List.lookup_cons, beq_eq_false_iff_ne.2 h, setting]

/-- A key that does not come again can be taken first. -/
theorem setting_cons {field : String × Value} (h : field.1 ∉ fields.map Prod.fst) :
    setting (field :: fields) key read? old
      = setting fields key read? (setting [field] key read? old) := by
  by_cases hkey : key = field.1
  · rw [← hkey] at h
    obtain ⟨k, v⟩ := field
    cases hkey
    rw [setting_cons_self, setting_cons_self, setting,
      Lookup.lookup_eq_none_iff_notMem.2 h]
    rfl
  · rw [setting_cons_of_ne hkey, setting_cons_of_ne hkey]
    rfl

end Setting

/-- Settings unless there is a fault. -/
def unlessFault {α : Type} (fault? : Option DecodeError) (settings : α) : Except DecodeError α :=
  match fault? with
  | some e => .error e
  | none => .ok settings

theorem bind_unlessFault {α β : Type} {x : Except DecodeError α} {fault? : Option DecodeError}
    {a : α} (h : x = unlessFault fault? a) (put : α → β) :
    (do let a ← x; .ok (put a)) = unlessFault fault? (put a) := by
  rw [h]
  cases fault? <;> rfl

namespace Group

variable {α : Type} {group : Group α}

/-- A group takes fields of a domain as a whole: one field is refused for its fault or else fills
the settings, whatever they are, and fields fill settings one after another. -/
structure Takes (group : Group α) (domain : String × Value → Prop)
    (fault? : String × Value → Option DecodeError) (fill : List (String × Value) → α → α) :
    Prop where
  set_eq : ∀ settings field, domain field →
    group.set settings field = unlessFault (fault? field) (fill [field] settings)
  nil : ∀ settings, fill [] settings = settings
  cons : ∀ settings field fields, field.1 ∉ fields.map Prod.fst →
    fill (field :: fields) settings = fill fields (fill [field] settings)

/-- Fields with distinct keys fill the settings unless one of them has a fault, and then the first
such fault is the error. -/
theorem Takes.setAll_eq {domain : String × Value → Prop}
    {fault? : String × Value → Option DecodeError} {fill : List (String × Value) → α → α}
    (h : group.Takes domain fault? fill) {fields : List (String × Value)}
    (hnodup : (fields.map Prod.fst).Nodup) (hdomain : ∀ field ∈ fields, domain field)
    (settings : α) :
    group.setAll settings fields
      = unlessFault (fields.findSome? fault?) (fill fields settings) := by
  induction fields generalizing settings with
  | nil =>
      rw [h.nil]
      rfl
  | cons field fields ih =>
      -- What is wrong with the later fields does not depend on what this one changes.
      obtain ⟨hnew, hrest⟩ := List.nodup_cons.1 hnodup
      obtain ⟨hfield, hfields⟩ := List.forall_mem_cons.1 hdomain
      rw [setAll, List.foldlM_cons, h.set_eq settings field hfield, List.findSome?_cons]
      cases fault? field with
      | some e => rfl
      | none =>
          rw [h.cons settings field fields hnew]
          exact ih hrest hfields _

/-- A change for a key refuses a value for its fault or else fills the settings. -/
def Changes (fill : List (String × Value) → α → α) (key : String)
    (change : Value → α → Except DecodeError α) (kind : Expected) : Prop :=
  ∀ v settings, change v settings = unlessFault (kind.fault? v) (fill [(key, v)] settings)

/-- A group knows keys if these are its keys, each with a change for its kind. -/
def Knows (group : Group α) (known : List (String × Expected))
    (fill : List (String × Value) → α → α) : Prop :=
  List.Forall₂ (fun entry key => entry.1 = key.1 ∧ Changes fill entry.1 entry.2 key.2)
    group.fields known

section Knows

variable {known : List (String × Expected)} {fill : List (String × Value) → α → α}

theorem Knows.keys_eq (h : group.Knows known fill) : group.keys = known.map Prod.fst := by
  rw [Group.keys, ← List.forall₂_eq_eq_eq, List.forall₂_map_left_iff, List.forall₂_map_right_iff]
  exact h.imp fun _ _ => And.left

theorem Knows.set_eq (h : group.Knows known fill) (settings : α) (field : String × Value) :
    group.set settings field = unlessFault (fieldFault? known field) (fill [field] settings) := by
  have hrel := Lookup.lookup_rel (R := Changes fill) h field.1
  rw [Group.set, fieldFault?, h.keys_eq]
  generalize group.fields.lookup field.1 = change? at hrel ⊢
  generalize known.lookup field.1 = kind? at hrel ⊢
  cases hrel with
  | none => rfl
  | some hentry => exact hentry field.2 settings

theorem Knows.takes (h : group.Knows known fill) (hnil : ∀ settings, fill [] settings = settings)
    (hcons : ∀ settings field fields, field.1 ∉ fields.map Prod.fst →
      fill (field :: fields) settings = fill fields (fill [field] settings)) :
    group.Takes (fun _ => True) (fieldFault? known) fill where
  set_eq := fun settings field _ => h.set_eq settings field
  nil := hnil
  cons := hcons

end Knows

end Group

/-! ## The groups -/

/-- The places that fields give, and otherwise those that are there. -/
def fillPaths (fields : List (String × Value)) (s : SourcePaths) : SourcePaths where
  pages := setting fields "pages" text? s.pages
  templates := setting fields "templates" text? s.templates
  candidates := setting fields "candidates" text? s.candidates
  aboveTheFold := setting fields "above_the_fold" text? s.aboveTheFold

/-- The CSS settings that fields give, and otherwise those that are there. -/
def fillCss (fields : List (String × Value)) (s : CssSettings) : CssSettings where
  minify := setting fields "minify" boolean? s.minify
  noticeBytes := setting fields "notice_bytes" size? s.noticeBytes
  warnBytes := setting fields "warn_bytes" size? s.warnBytes

/-- The processing settings that fields give, and otherwise those that are there. -/
def fillProcessing (fields : List (String × Value)) (s : ProcessingSettings) :
    ProcessingSettings where
  maxProcesses := setting fields "max_processes" (fun v => (size? v).map some) s.maxProcesses

/-- The keys of the places. -/
def pathsKeys : List (String × Expected) :=
  [("pages", .text), ("templates", .text), ("candidates", .text), ("above_the_fold", .text)]

/-- The keys of the CSS settings. -/
def cssKeys : List (String × Expected) :=
  [("minify", .boolean), ("notice_bytes", .size), ("warn_bytes", .size)]

/-- The keys of the processing settings. -/
def processingKeys : List (String × Expected) := [("max_processes", .size)]

section Change

variable {α : Type} {v : Value} {settings : α}

theorem textOf_bind {put : String → α} (h : ∀ text, v = .string text → put text = settings) :
    (do let text ← textOf v; .ok (put text)) = unlessFault (Expected.text.fault? v) settings := by
  cases v with
  | string text =>
      rw [← h text rfl]
      rfl
  | _ => rfl

theorem booleanOf_bind {put : Bool → α} (h : ∀ b, v = .boolean b → put b = settings) :
    (do let b ← booleanOf v; .ok (put b)) = unlessFault (Expected.boolean.fault? v) settings := by
  cases v with
  | boolean b =>
      rw [← h b rfl]
      rfl
  | _ => rfl

theorem sizeOf_bind {put : Nat → α} (h : ∀ n, v = .integer n → put n.toNat = settings) :
    (do let n ← sizeOf v; .ok (put n)) = unlessFault (Expected.size.fault? v) settings := by
  cases v with
  | integer n =>
      rw [← h n rfl, sizeOf, Expected.fault?]
      split <;> rfl
  | _ => rfl

end Change

theorem pathsGroup_knows : pathsGroup.Knows pathsKeys fillPaths := by
  refine .cons ⟨rfl, fun v s => ?_⟩ (.cons ⟨rfl, fun v s => ?_⟩ (.cons ⟨rfl, fun v s => ?_⟩
    (.cons ⟨rfl, fun v s => ?_⟩ .nil)))
  all_goals
    refine textOf_bind ?_
    rintro text rfl
    rfl

theorem cssGroup_knows : cssGroup.Knows cssKeys fillCss := by
  refine .cons ⟨rfl, fun v s => booleanOf_bind ?_⟩ (.cons ⟨rfl, fun v s => sizeOf_bind ?_⟩
    (.cons ⟨rfl, fun v s => sizeOf_bind ?_⟩ .nil))
  all_goals
    rintro _ rfl
    rfl

theorem processingGroup_knows : processingGroup.Knows processingKeys fillProcessing := by
  refine .cons ⟨rfl, fun v s => sizeOf_bind ?_⟩ .nil
  rintro n rfl
  rfl

theorem pathsGroup_takes :
    pathsGroup.Takes (fun _ => True) (fieldFault? pathsKeys) fillPaths :=
  pathsGroup_knows.takes (fun _ => rfl) fun s field fields h => by
    simp only [fillPaths, setting_cons h]

theorem cssGroup_takes : cssGroup.Takes (fun _ => True) (fieldFault? cssKeys) fillCss :=
  cssGroup_knows.takes (fun _ => rfl) fun s field fields h => by
    simp only [fillCss, setting_cons h]

theorem processingGroup_takes :
    processingGroup.Takes (fun _ => True) (fieldFault? processingKeys) fillProcessing :=
  processingGroup_knows.takes (fun _ => rfl) fun s field fields h => by
    simp only [fillProcessing, setting_cons h]

end SiteCompiler.Settings
