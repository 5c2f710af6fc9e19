import SiteCompiler.Build.Race
import Mathlib.Data.List.Basic
set_option autoImplicit false

/-! # What comes of a race

Pages that are built side by side succeed together exactly if each of them does, and then the race
has no say (`collect_eq_ok_iff`). If some fail, the errors in which a race can end are exactly
theirs (`exists_collect_eq_error_iff`).
-/

namespace SiteCompiler.Build.Race

variable {α : Type} {race : Race} {outcomes : List (Except BuildError α)} {values : List α}
  {error : BuildError}

theorem errorOf?_eq_some_iff {outcome : Except BuildError α} :
    errorOf? outcome = some error ↔ outcome = .error error := by
  cases outcome with
  | error e => rw [errorOf?, Option.some_inj, Except.error.injEq]
  | ok value => exact iff_of_false nofun nofun

theorem mem_errors_iff : error ∈ outcomes.filterMap errorOf? ↔ .error error ∈ outcomes := by
  rw [List.mem_filterMap]
  constructor
  · rintro ⟨outcome, hmem, herror⟩
    rw [errorOf?_eq_some_iff.1 herror] at hmem
    exact hmem
  · exact fun hmem => ⟨_, hmem, rfl⟩

/-- Without errors there are values only. -/
theorem eq_map_ok (h : outcomes.filterMap errorOf? = []) :
    outcomes = (outcomes.filterMap Except.toOption).map .ok := by
  induction outcomes with
  | nil => rfl
  | cons outcome outcomes ih =>
      cases outcome with
      | error e => exact absurd h (List.cons_ne_nil e _)
      | ok value => exact congrArg (List.cons _) (ih h)

/-- **A race succeeds exactly if all do**, with all their values. -/
theorem collect_eq_ok_iff : race.collect outcomes = .ok values ↔ outcomes = values.map .ok := by
  constructor
  · intro h
    rw [collect] at h
    split at h
    · next hnone =>
        cases h
        exact eq_map_ok hnone
    · cases h
  · rintro rfl
    have hnone : (values.map Except.ok).filterMap (errorOf? (α := α)) = [] := by
      simp [List.filterMap_map, Function.comp_def, errorOf?]
    have hvalues : (values.map (Except.ok (ε := BuildError))).filterMap Except.toOption
        = values := by
      simp [List.filterMap_map, Function.comp_def, Except.toOption]
    rw [collect, hnone, hvalues]

/-- A race that fails ends in the error of one of those that take part. -/
theorem mem_of_collect_eq_error (h : race.collect outcomes = .error error) :
    .error error ∈ outcomes := by
  rw [collect] at h
  split at h
  · cases h
  · next first others herrors =>
      cases h
      rw [← mem_errors_iff, herrors]
      exact race.winner_mem first others

/-- The race that an error wins if it takes part. -/
def wonBy (error : BuildError) : Race where
  winner first others := if error ∈ first :: others then error else first
  winner_mem first others := by
    split
    · next hmem => exact hmem
    · exact List.mem_cons_self

/-- **Any of the errors can be that of the race**, and no other. -/
theorem exists_collect_eq_error_iff :
    (∃ race : Race, race.collect outcomes = .error error) ↔ .error error ∈ outcomes := by
  constructor
  · rintro ⟨race, h⟩
    exact mem_of_collect_eq_error h
  · intro hmem
    have herror := mem_errors_iff.2 hmem
    refine ⟨wonBy error, ?_⟩
    rw [collect]
    split
    · next hnone =>
        rw [hnone] at herror
        cases herror
    · next first others herrors =>
        rw [herrors] at herror
        exact congrArg Except.error (if_pos herror)

end SiteCompiler.Build.Race
