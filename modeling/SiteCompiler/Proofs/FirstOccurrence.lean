import Mathlib.Data.List.Basic
import Mathlib.Data.List.Induction
set_option autoImplicit false

/-! # Keeping first occurrences

`List.eraseDups` keeps of equal members the first. What comes out for a list of lists does not
depend on whether the lists, or what they were made from, were rid of repetitions before
(`eraseDups_flatMap_eraseDups`, `eraseDups_append_congr`): a later occurrence adds nothing. If the
lists are sorted, what is kept stands in the order of its first list and then in the order of that
list (`pairwise_eraseDups_flatMap`).
-/

namespace SiteCompiler.FirstOccurrence

variable {α β : Type} [BEq α] [LawfulBEq α] [BEq β] [LawfulBEq β]

/-- Leaving members out and keeping first occurrences can be done in either order. -/
theorem eraseDups_filter (p : α → Bool) (xs : List α) :
    (xs.filter p).eraseDups = xs.eraseDups.filter p := by
  induction hlen : xs.length using Nat.strongRecOn generalizing xs with
  | ind n ih =>
      cases xs with
      | nil => rfl
      | cons x xs =>
          have hshort : (xs.filter fun y => !y == x).length < n := by
            have hle := List.length_filter_le (fun y => !y == x) xs
            rw [List.length_cons] at hlen
            omega
          rw [List.eraseDups_cons, List.filter_cons, List.filter_cons, ← ih _ hshort _ rfl]
          by_cases hx : p x = true
          · rw [if_pos hx, if_pos hx, List.eraseDups_cons, List.filter_filter, List.filter_filter]
            congr 3
            funext y
            exact Bool.and_comm _ _
          · rw [if_neg hx, if_neg hx, List.filter_filter]
            congr 1
            refine List.filter_congr fun y _ => ?_
            by_cases hy : p y = true
            · have hne : (y == x) = false := by
                rw [beq_eq_false_iff_ne]
                rintro rfl
                exact hx hy
              rw [hne, hy]
              rfl
            · rw [Bool.eq_false_iff.2 hy]
              rfl

theorem eraseDups_removeAll (xs ys : List α) :
    (xs.removeAll ys).eraseDups = xs.eraseDups.removeAll ys :=
  eraseDups_filter _ xs

/-- What a list takes away depends on its members only. -/
theorem removeAll_congr {ys ys' : List α} (h : ∀ y, y ∈ ys ↔ y ∈ ys') (xs : List α) :
    xs.removeAll ys = xs.removeAll ys' := by
  refine List.filter_congr fun x _ => ?_
  have hmem : ys.elem x = ys'.elem x := by
    rw [Bool.eq_iff_iff, List.elem_iff, List.elem_iff]
    exact h x
  exact congrArg (!·) hmem

theorem eraseDups_append_congr {xs xs' ys ys' : List α} (hxs : xs.eraseDups = xs'.eraseDups)
    (hys : ys.eraseDups = ys'.eraseDups) : (xs ++ ys).eraseDups = (xs' ++ ys').eraseDups := by
  have hmem : ∀ x, x ∈ xs ↔ x ∈ xs' := by
    intro x
    rw [← List.mem_eraseDups, hxs, List.mem_eraseDups]
  rw [List.eraseDups_append, List.eraseDups_append, eraseDups_removeAll, eraseDups_removeAll, hxs,
    hys, removeAll_congr hmem]

/-- What a repeated member contributes is taken away with what it contributed before. -/
theorem removeAll_flatMap_filter (f : α → List β) (x : α) (xs : List α) :
    ((xs.filter fun y => !y == x).flatMap f).removeAll (f x) = (xs.flatMap f).removeAll (f x) := by
  induction xs with
  | nil => rfl
  | cons y xs ih =>
      have happend (as bs : List β) :
          (as ++ bs).removeAll (f x) = as.removeAll (f x) ++ bs.removeAll (f x) :=
        List.filter_append _ _
      rw [List.filter_cons, List.flatMap_cons, happend]
      by_cases hy : y = x
      · have hnil : (f y).removeAll (f x) = [] := by
          rw [hy]
          exact List.filter_eq_nil_iff.2 fun z hz => by simpa using hz
        rw [hnil, List.nil_append, if_neg (by simp [hy]), ih]
      · rw [if_pos (by simp [hy]), List.flatMap_cons, happend, ih]

theorem eraseDups_flatMap_eraseDups (f : α → List β) (xs : List α) :
    (xs.eraseDups.flatMap f).eraseDups = (xs.flatMap f).eraseDups := by
  induction hlen : xs.length using Nat.strongRecOn generalizing xs with
  | ind n ih =>
      cases xs with
      | nil => rfl
      | cons x xs =>
          have hshort : (xs.filter fun y => !y == x).length < n := by
            have hle := List.length_filter_le (fun y => !y == x) xs
            rw [List.length_cons] at hlen
            omega
          rw [List.eraseDups_cons, List.flatMap_cons, List.flatMap_cons, List.eraseDups_append,
            List.eraseDups_append, eraseDups_removeAll, ih _ hshort _ rfl, ← eraseDups_removeAll,
            removeAll_flatMap_filter]

/-! ## The order of first occurrences -/

theorem eraseDups_of_nodup {xs : List α} (h : xs.Nodup) : xs.eraseDups = xs := by
  induction xs with
  | nil => rfl
  | cons x xs ih =>
      obtain ⟨hx, hxs⟩ := List.nodup_cons.1 h
      have hfilter : (xs.filter fun y => !y == x) = xs := by
        rw [List.filter_eq_self]
        intro y hy
        have hne : y ≠ x := fun heq => hx (heq ▸ hy)
        simpa using hne
      rw [List.eraseDups_cons, hfilter, ih hxs]

theorem eraseDups_concat [DecidableEq α] (xs : List α) (x : α) :
    (xs ++ [x]).eraseDups = if x ∈ xs then xs.eraseDups else xs.eraseDups ++ [x] := by
  rw [List.eraseDups_append]
  split
  · next hx => simp [List.removeAll, hx]
  · next hx => simp [List.removeAll, hx, List.eraseDups_cons]

theorem nodup_eraseDups [DecidableEq α] (xs : List α) : xs.eraseDups.Nodup := by
  induction xs using List.reverseRecOn with
  | nil => exact List.nodup_nil
  | append_singleton xs x ih =>
      rw [eraseDups_concat]
      split
      · exact ih
      · next hx =>
          refine List.nodup_append.2 ⟨ih, by simp, ?_⟩
          rintro y hy z hz rfl
          rw [List.mem_singleton] at hz
          exact hx (hz ▸ List.mem_eraseDups.1 hy)

/-- Of lists in order, put together, the first occurrences stand in the order of the lists that
they come from, and within a list in its order. -/
theorem pairwise_eraseDups_flatMap {γ : Type} {r : α → α → Prop} (hirrefl : ∀ x, ¬ r x x)
    (f : γ → List α) (ls : List γ) (hsorted : ∀ l ∈ ls, (f l).Pairwise r) :
    (ls.flatMap f).eraseDups.Pairwise fun x y =>
      ls.findIdx (fun l => (f l).contains x) < ls.findIdx (fun l => (f l).contains y) ∨
        ls.findIdx (fun l => (f l).contains x) = ls.findIdx (fun l => (f l).contains y) ∧ r x y := by
  induction ls with
  | nil => exact List.Pairwise.nil
  | cons l ls ih =>
      have hl : (f l).Pairwise r := hsorted l List.mem_cons_self
      have hnodup : (f l).Nodup := by
        refine hl.imp ?_
        rintro x _ hxx rfl
        exact hirrefl x hxx
      have hfirst {x : α} (hx : x ∈ f l) :
          (l :: ls).findIdx (fun l => (f l).contains x) = 0 := by
        rw [List.findIdx_cons, List.contains_iff_mem.2 hx]
        rfl
      have hlater {x : α} (hx : x ∉ f l) : (l :: ls).findIdx (fun l => (f l).contains x)
          = ls.findIdx (fun l => (f l).contains x) + 1 := by
        have hnot : (f l).contains x = false := by simpa using hx
        rw [List.findIdx_cons, hnot]
        rfl
      have hrest {x : α} (hx : x ∈ (ls.flatMap f).eraseDups.removeAll (f l)) : x ∉ f l := by
        have := (List.mem_filter.1 hx).2
        simpa using this
      rw [List.flatMap_cons, List.eraseDups_append, eraseDups_of_nodup hnodup, eraseDups_removeAll,
        List.pairwise_append]
      refine ⟨?_, ?_, ?_⟩
      · refine hl.imp_of_mem ?_
        intro x y hx hy hxy
        exact Or.inr ⟨by rw [hfirst hx, hfirst hy], hxy⟩
      · have hih := ih fun m hm => hsorted m (List.mem_cons_of_mem l hm)
        refine (hih.filter _).imp_of_mem ?_
        intro x y hx hy hxy
        rw [hlater (hrest hx), hlater (hrest hy), Nat.add_lt_add_iff_right, Nat.add_right_cancel_iff]
        exact hxy
      · intro x hx y hy
        rw [hfirst hx, hlater (hrest hy)]
        exact Or.inl (Nat.succ_pos _)

end SiteCompiler.FirstOccurrence
