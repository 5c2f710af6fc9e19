import Mathlib.Data.List.Forall2
import Mathlib.Data.List.Nodup
set_option autoImplicit false

/-! # Looking up keys

Where keys are distinct, a key leads to a value exactly if the two stand together
(`lookup_eq_some_iff_mem`), so the order of the fields does not matter (`lookup_perm`).
-/

namespace SiteCompiler.Lookup

variable {α β : Type} {fields fields' : List (String × α)} {key : String} {x : α}

theorem mem_of_lookup (h : fields.lookup key = some x) : (key, x) ∈ fields := by
  obtain ⟨before, after, rfl, -⟩ := List.lookup_eq_some_iff.1 h
  simp

theorem lookup_eq_none_iff_notMem : fields.lookup key = none ↔ key ∉ fields.map Prod.fst := by
  rw [List.lookup_eq_none_iff, List.mem_map, not_exists]
  refine forall_congr' fun field => ?_
  rw [not_and, bne_iff_ne, ne_comm]

theorem isSome_lookup_iff : (fields.lookup key).isSome = true ↔ key ∈ fields.map Prod.fst := by
  rw [Option.isSome_iff_ne_none, ne_eq, lookup_eq_none_iff_notMem, not_not]

theorem lookup_eq_some_iff_mem (h : (fields.map Prod.fst).Nodup) :
    fields.lookup key = some x ↔ (key, x) ∈ fields := by
  refine ⟨mem_of_lookup, fun hx => ?_⟩
  obtain ⟨y, hy⟩ := Option.isSome_iff_exists.1
    (isSome_lookup_iff.2 (List.mem_map_of_mem (f := Prod.fst) hx))
  have heq : (key, y) = (key, x) := List.inj_on_of_nodup_map h (mem_of_lookup hy) hx rfl
  cases heq
  exact hy

theorem lookup_perm (h : (fields.map Prod.fst).Nodup) (hperm : fields.Perm fields') (key : String) :
    fields.lookup key = fields'.lookup key := by
  have h' : (fields'.map Prod.fst).Nodup := (hperm.map Prod.fst).nodup_iff.1 h
  refine Option.ext fun x => ?_
  rw [lookup_eq_some_iff_mem h, lookup_eq_some_iff_mem h', hperm.mem_iff]

/-- If two lists have the same keys in the same order, a key leads to values that belong
together. -/
theorem lookup_rel {R : String → α → β → Prop} {others : List (String × β)}
    (h : List.Forall₂ (fun field other => field.1 = other.1 ∧ R field.1 field.2 other.2)
      fields others) (key : String) :
    Option.Rel (R key) (fields.lookup key) (others.lookup key) := by
  induction h with
  | nil => exact .none
  | @cons field other fields others hfield _ ih =>
      obtain ⟨hkey, hR⟩ := hfield
      rw [List.lookup_cons, List.lookup_cons, ← hkey]
      by_cases heq : key = field.1
      · rw [heq, beq_self_eq_true]
        exact .some hR
      · rw [beq_eq_false_iff_ne.2 heq]
        exact ih

end SiteCompiler.Lookup
