import SiteCompiler.Candidate.Registry
import SiteCompiler.Proofs.FirstOccurrence
import Mathlib.Data.List.Induction
set_option autoImplicit false

/-! # What a registry remembers

A registry is made by registering candidates one after another. Its names are then the registered
names, each where it was registered first (`names_ofList`), while what it says of a name is what was
registered last (`get?_ofList`). A chunk is owned by the first candidate that has its text
(`criticalOwner?_eq_some_iff`).
-/

namespace SiteCompiler.Registry

variable {registry : Registry} {candidate : Candidate} {name : String}

theorem contains_iff : registry.contains name = true ↔ name ∈ registry.names := by
  simp [contains, names]

theorem get?_eq_none_iff : registry.get? name = none ↔ name ∉ registry.names := by
  simp [get?, names]

/-- Where names do not repeat, each candidate is the one of its name. -/
theorem get?_of_mem (hnodup : registry.names.Nodup) (h : candidate ∈ registry.candidates) :
    registry.get? candidate.name = some candidate := by
  obtain ⟨before, after, heq⟩ := List.append_of_mem h
  rw [names, heq, List.map_append, List.map_cons, List.nodup_append] at hnodup
  rw [get?, heq, List.find?_eq_some_iff_append]
  refine ⟨beq_self_eq_true _, before, after, rfl, fun c hc => ?_⟩
  have hne := hnodup.2.2 c.name (List.mem_map_of_mem hc) candidate.name List.mem_cons_self
  simpa using hne

/-! ## Registering one candidate -/

theorem names_insert (registry : Registry) (candidate : Candidate) :
    (registry.insert candidate).names = if candidate.name ∈ registry.names then registry.names
      else registry.names ++ [candidate.name] := by
  rw [insert]
  by_cases hmem : candidate.name ∈ registry.names
  · rw [if_pos (contains_iff.2 hmem), if_pos hmem, names, names, List.map_map]
    refine List.map_congr_left fun c _ => ?_
    by_cases hc : c.name = candidate.name
    · simp [hc]
    · simp [hc]
  · rw [if_neg fun h => hmem (contains_iff.1 h), if_neg hmem, names, names, List.map_append]
    rfl

/-- What is registered under a name is the candidate that was registered last. -/
theorem get?_insert (registry : Registry) (candidate : Candidate) (name : String) :
    (registry.insert candidate).get? name
      = if candidate.name = name then some candidate else registry.get? name := by
  rw [insert]
  by_cases hmem : candidate.name ∈ registry.names
  · -- The new candidate has the name of the one whose place it takes.
    have hsame : ((fun c => c.name == name) ∘ fun c =>
        if c.name = candidate.name then candidate else c) = fun c => c.name == name := by
      funext c
      by_cases hc : c.name = candidate.name
      · simp [hc]
      · simp [hc]
    rw [if_pos (contains_iff.2 hmem), get?, List.find?_map, hsame]
    cases hget : registry.get? name with
    | none =>
        have hne : candidate.name ≠ name := by
          rintro rfl
          exact get?_eq_none_iff.1 hget hmem
        rw [get?] at hget
        rw [hget, if_neg hne]
        rfl
    | some c =>
        have hname : c.name = name := by simpa using List.find?_some hget
        rw [get?] at hget
        rw [hget, Option.map_some, hname]
        by_cases hc : candidate.name = name
        · rw [if_pos hc, if_pos hc.symm]
        · rw [if_neg hc, if_neg (Ne.symm hc)]
  · rw [if_neg fun h => hmem (contains_iff.1 h), get?, List.find?_append]
    by_cases hname : candidate.name = name
    · have hnone : registry.candidates.find? (fun c => c.name == name) = none :=
        get?_eq_none_iff.2 (hname ▸ hmem)
      rw [hnone, if_pos hname]
      simp [hname]
    · rw [if_neg hname, get?]
      simp [hname]

/-! ## Registering many -/

theorem ofList_concat (cs : List Candidate) (candidate : Candidate) :
    ofList (cs ++ [candidate]) = (ofList cs).insert candidate := by
  rw [ofList, List.foldl_append]
  rfl

/-- Names stand in the order in which they were first registered. -/
theorem names_ofList (cs : List Candidate) :
    (ofList cs).names = (cs.map Candidate.name).eraseDups := by
  induction cs using List.reverseRecOn with
  | nil => rfl
  | append_singleton cs candidate ih =>
      rw [ofList_concat, names_insert, ih, List.map_append, List.map_singleton,
        FirstOccurrence.eraseDups_concat]
      exact if_congr List.mem_eraseDups rfl rfl

/-- The registry holds the candidate of a name that was registered last. -/
theorem get?_ofList (cs : List Candidate) (name : String) :
    (ofList cs).get? name = (cs.filter fun c => c.name == name).getLast? := by
  induction cs using List.reverseRecOn with
  | nil => rfl
  | append_singleton cs candidate ih =>
      rw [ofList_concat, get?_insert, ih, List.filter_append]
      by_cases hname : candidate.name = name
      · simp [hname]
      · simp [hname]

/-! ## The owner of a chunk -/

/-- A candidate can own a chunk of a layer: it is in the layer, and the chunk is its critical
fragment. -/
def CanOwn (layer : Layer) (chunk : String) (c : Candidate) : Prop :=
  c.layer = layer ∧ c.criticalCss = some chunk

/-- A candidate owns a chunk: it is the first that can. -/
def Owns (registry : Registry) (layer : Layer) (chunk : String) (c : Candidate) : Prop :=
  CanOwn layer chunk c ∧ ∃ before after, registry.candidates = before ++ c :: after ∧
    ∀ b ∈ before, ¬ CanOwn layer chunk b

theorem criticalOwner?_eq_some_iff {layer : Layer} {chunk : String} :
    registry.criticalOwner? layer chunk = some name
      ↔ ∃ c, registry.Owns layer chunk c ∧ c.name = name := by
  rw [criticalOwner?, Option.map_eq_some_iff]
  refine exists_congr fun c => and_congr_left fun _ => ?_
  rw [List.find?_eq_some_iff_append]
  simp [Owns, CanOwn, imp_iff_not_or]

end SiteCompiler.Registry
