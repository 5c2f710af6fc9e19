import SiteCompiler.OsText
import SiteCompiler.Proofs.Text.Utf8
import Mathlib.Data.List.Infix
set_option autoImplicit false

/-! # Names and their readings

A text is read back from its name (`text_ofText`). A name that is no text loses something when it
is read, and only for the others do equal readings mean equal names (`IsText`).
-/

namespace SiteCompiler.OsText

variable {s t : OsText}

theorem bytes_inj : s.bytes = t.bytes ↔ s = t := by
  constructor
  · intro h
    cases s
    cases t
    cases h
    rfl
  · rintro rfl
    rfl

theorem bytes_append (s t : OsText) : (s ++ t).bytes = s.bytes ++ t.bytes := rfl

theorem bytes_empty : ("" : OsText).bytes = [] := by decide

theorem bytes_eq_nil_iff : s.bytes = [] ↔ s = "" := by
  rw [← bytes_inj, bytes_empty]

@[simp] theorem isEmpty_iff : s.isEmpty = true ↔ s = "" := by
  rw [isEmpty, List.isEmpty_iff, bytes_eq_nil_iff]

@[simp] theorem isEmpty_eq_false_iff : s.isEmpty = false ↔ s ≠ "" := by
  rw [← Bool.not_eq_true, isEmpty_iff]

theorem append_assoc (s t u : OsText) : s ++ t ++ u = s ++ (t ++ u) :=
  bytes_inj.1 (List.append_assoc _ _ _)

theorem append_empty (s : OsText) : s ++ ("" : OsText) = s := by
  rw [← bytes_inj, bytes_append, bytes_empty, List.append_nil]

theorem empty_append (s : OsText) : ("" : OsText) ++ s = s := by
  rw [← bytes_inj, bytes_append, bytes_empty, List.nil_append]

theorem append_eq_empty_iff : s ++ t = "" ↔ s = "" ∧ t = "" := by
  rw [← bytes_eq_nil_iff, bytes_append, List.append_eq_nil_iff, bytes_eq_nil_iff, bytes_eq_nil_iff]

/-! ## Parts with a separator between them -/

variable {sep : OsText} {parts parts' : List OsText}

theorem intercalate_nil : intercalate sep [] = "" := bytes_inj.1 bytes_empty.symm

theorem intercalate_singleton (s : OsText) : intercalate sep [s] = s := by
  rw [← bytes_inj, intercalate, List.map_singleton, List.intercalate_singleton]

theorem intercalate_cons_cons (s t : OsText) (parts : List OsText) :
    intercalate sep (s :: t :: parts) = s ++ sep ++ intercalate sep (t :: parts) :=
  bytes_inj.1 (by simp [intercalate, bytes_append])

theorem intercalate_append (hne : parts ≠ []) (hne' : parts' ≠ []) :
    intercalate sep (parts ++ parts') = intercalate sep parts ++ sep ++ intercalate sep parts' := by
  induction parts with
  | nil => exact absurd rfl hne
  | cons s parts ih =>
      cases parts with
      | nil =>
          obtain ⟨t, rest, rfl⟩ := List.exists_cons_of_ne_nil hne'
          rw [List.singleton_append, intercalate_cons_cons, intercalate_singleton]
      | cons t parts =>
          rw [List.cons_append, List.cons_append, intercalate_cons_cons, ← List.cons_append,
            ih (List.cons_ne_nil t parts), intercalate_cons_cons]
          simp only [append_assoc]

/-! ## Order -/

theorem le_trans {u : OsText} (h : s ≤ t) (h' : t ≤ u) : s ≤ u := by
  have hbytes : s.bytes ≤ t.bytes := h
  exact List.le_trans hbytes h'

theorem le_total (s t : OsText) : s ≤ t ∨ t ≤ s := List.le_total s.bytes t.bytes

/-! ## Readings -/

@[simp] theorem text_ofText (s : String) : (ofText s).text = s := Text.ofBytes_bytes s

theorem ofText_inj {s t : String} : ofText s = ofText t ↔ s = t := by
  rw [← bytes_inj]
  exact Text.bytes_inj

theorem ofText_append (s t : String) : ofText (s ++ t) = ofText s ++ ofText t :=
  bytes_inj.1 (Text.bytes_append s t)

/-- Whether the name is a text. -/
def IsText (s : OsText) : Prop := ofText s.text = s

instance : DecidablePred IsText := fun s => inferInstanceAs (Decidable (ofText s.text = s))

theorem isText_ofText (s : String) : IsText (ofText s) := congrArg ofText (text_ofText s)

/-- What is read as ASCII text is this text. -/
theorem eq_ofText_of_text {ascii : String} (hascii : ∀ c ∈ ascii.toList, c.toNat < 0x80)
    (h : s.text = ascii) : s = ofText ascii := by
  rw [← bytes_inj, ← h]
  refine (Text.bytes_ofBytes ?_).symm
  rw [← text, h]
  exact hascii

theorem text_eq_empty_iff : s.text = "" ↔ s = "" := by
  constructor
  · intro h
    exact eq_ofText_of_text (by simp) h
  · rintro rfl
    exact text_ofText ""

end SiteCompiler.OsText
