import Mathlib.Data.List.Forall2
set_option autoImplicit false

/-! # Steps that may fail, one after another

Two steps succeed together exactly if the second one succeeds with what the first one gives
(`bind_eq_ok_iff`). `mapM` over a list takes steps from the left up to the first that fails. It
succeeds exactly with the results of all steps (`mapM_eq_ok_iff`) and fails exactly as the first
failing step does (`mapM_eq_error_iff`). Two such runs are the same if their steps are, and steps
that end in an error which the run as a whole does not end in need not be compared
(`mapM_congr_unless`).
-/

namespace SiteCompiler.Sequence

variable {ε α β γ : Type}

/-! ## Two steps -/

theorem bind_eq_ok_iff {x : Except ε α} {f : α → Except ε β} {z : β} :
    x >>= f = .ok z ↔ ∃ y, x = .ok y ∧ f y = .ok z := by
  cases x with
  | error e => exact iff_of_false nofun fun ⟨_, h, _⟩ => nomatch h
  | ok y =>
      constructor
      · intro h
        exact ⟨y, rfl, h⟩
      · rintro ⟨y', h, hz⟩
        cases h
        exact hz

theorem bind_eq_error_iff {x : Except ε α} {f : α → Except ε β} {e : ε} :
    x >>= f = .error e ↔ x = .error e ∨ ∃ y, x = .ok y ∧ f y = .error e := by
  cases x with
  | error e' =>
      constructor
      · intro h
        cases h
        exact Or.inl rfl
      · rintro (h | ⟨y, h, -⟩)
        · cases h
          rfl
        · cases h
  | ok y =>
      constructor
      · intro h
        exact Or.inr ⟨y, rfl, h⟩
      · rintro (h | ⟨y', h, hz⟩)
        · cases h
        · cases h
          exact hz

theorem map_eq_ok_iff {x : Except ε α} {f : α → β} {z : β} :
    x.map f = .ok z ↔ ∃ y, x = .ok y ∧ f y = z := by
  cases x with
  | error e => exact iff_of_false nofun fun ⟨_, h, _⟩ => nomatch h
  | ok y =>
      constructor
      · intro h
        exact ⟨y, rfl, Except.ok.inj h⟩
      · rintro ⟨y', h, rfl⟩
        cases h
        rfl

theorem map_eq_error_iff {x : Except ε α} {f : α → β} {e : ε} :
    x.map f = .error e ↔ x = .error e := by
  cases x with
  | error e' =>
      constructor <;>
        · intro h
          cases h
          rfl
  | ok y => exact iff_of_false nofun nofun

/-! ## Many steps -/

theorem mapM_cons_of_ok {f : α → Except ε β} {x : α} {y : β} (h : f x = .ok y)
    (xs : List α) : (x :: xs).mapM f = (xs.mapM f).map (y :: ·) := by
  rw [List.mapM_cons, h]
  cases xs.mapM f <;> rfl

theorem mapM_cons_of_error {f : α → Except ε β} {x : α} {e : ε} (h : f x = .error e)
    (xs : List α) : (x :: xs).mapM f = .error e := by
  rw [List.mapM_cons, h]
  rfl

theorem mapM_bind_pure {f g : α → Except ε β} (h : ∀ x, f x = g x) (k : List β → γ)
    (xs : List α) : (do let ys ← xs.mapM f; return k ys) = (xs.mapM g).map k := by
  rw [funext h]
  cases xs.mapM g <;> rfl

theorem mapM_eq_ok_iff {f : α → Except ε β} {xs : List α} {ys : List β} :
    xs.mapM f = .ok ys ↔ List.Forall₂ (fun x y => f x = .ok y) xs ys := by
  induction xs generalizing ys with
  | nil =>
      rw [List.forall₂_nil_left_iff]
      constructor
      · intro h
        cases h
        rfl
      · rintro rfl
        rfl
  | cons x xs ih =>
      rw [List.forall₂_cons_left_iff]
      cases hx : f x with
      | error e =>
          rw [mapM_cons_of_error hx]
          exact iff_of_false nofun fun ⟨_, _, hy, _⟩ => nomatch hy
      | ok y =>
          rw [mapM_cons_of_ok hx, map_eq_ok_iff]
          constructor
          · rintro ⟨ys', hys, rfl⟩
            exact ⟨y, ys', rfl, ih.1 hys, rfl⟩
          · rintro ⟨y', ys', hy, hys, rfl⟩
            cases hy
            exact ⟨ys', ih.2 hys, rfl⟩

/-- What holds of every step of a run, given that the steps before succeed, relates what goes in to
what comes out. -/
theorem forall₂_of_mapM {R : α → β → Prop} {f : α → Except ε β} {xs : List α} {ys : List β}
    (h : xs.mapM f = .ok ys)
    (hstep : ∀ before x after zs y, xs = before ++ x :: after → before.mapM f = .ok zs →
      f x = .ok y → R x y) : List.Forall₂ R xs ys := by
  induction xs generalizing ys with
  | nil =>
      cases h
      exact .nil
  | cons x xs ih =>
      obtain ⟨y, ys', hy, hys, rfl⟩ := List.forall₂_cons_left_iff.1 (mapM_eq_ok_iff.1 h)
      refine .cons (hstep [] x xs [] y rfl rfl hy) (ih (mapM_eq_ok_iff.2 hys) ?_)
      intro before x' after zs y' hxs hbefore hx'
      refine hstep (x :: before) x' after (y :: zs) y' (by rw [hxs]; rfl) ?_ hx'
      rw [mapM_cons_of_ok hy, hbefore]
      rfl

theorem mapM_eq_error_iff {f : α → Except ε β} {xs : List α} {e : ε} :
    xs.mapM f = .error e ↔ ∃ before x after ys,
      xs = before ++ x :: after ∧ before.mapM f = .ok ys ∧ f x = .error e := by
  induction xs with
  | nil =>
      refine iff_of_false nofun ?_
      rintro ⟨before, x, after, ys, hxs, -⟩
      simp at hxs
  | cons x xs ih =>
      cases hx : f x with
      | error e' =>
          rw [mapM_cons_of_error hx]
          constructor
          · intro h
            cases h
            exact ⟨[], x, xs, [], rfl, rfl, hx⟩
          · rintro ⟨before, x', after, ys, hxs, hbefore, hx'⟩
            cases before with
            | nil =>
                cases hxs
                rw [Except.error.inj (hx.symm.trans hx')]
            | cons b before =>
                cases hxs
                rw [mapM_cons_of_error hx] at hbefore
                cases hbefore
      | ok y =>
          rw [mapM_cons_of_ok hx, map_eq_error_iff, ih]
          constructor
          · rintro ⟨before, x', after, ys, rfl, hbefore, hx'⟩
            refine ⟨x :: before, x', after, y :: ys, rfl, ?_, hx'⟩
            rw [mapM_cons_of_ok hx, hbefore]
            rfl
          · rintro ⟨before, x', after, ys, hxs, hbefore, hx'⟩
            cases before with
            | nil =>
                cases hxs
                rw [hx] at hx'
                cases hx'
            | cons b before =>
                cases hxs
                rw [mapM_cons_of_ok hx, map_eq_ok_iff] at hbefore
                obtain ⟨ys', hys, -⟩ := hbefore
                exact ⟨before, x', after, ys', rfl, hys, hx'⟩

/-- Everything that comes out comes from something that goes in. -/
theorem exists_of_mem_right {R : α → β → Prop} {xs : List α} {ys : List β}
    (h : List.Forall₂ R xs ys) {y : β} (hy : y ∈ ys) : ∃ x ∈ xs, R x y := by
  induction h with
  | nil => cases hy
  | @cons x y' xs ys hxy _ ih =>
      rcases List.mem_cons.1 hy with rfl | hy
      · exact ⟨x, List.mem_cons_self, hxy⟩
      · obtain ⟨x', hx', hR⟩ := ih hy
        exact ⟨x', List.mem_cons_of_mem x hx', hR⟩

theorem exists_mapM_eq_ok_iff {f : α → Except ε β} {xs : List α} :
    (∃ ys, xs.mapM f = .ok ys) ↔ ∀ x ∈ xs, ∃ y, f x = .ok y := by
  constructor
  · rintro ⟨ys, hys⟩ x hx
    obtain ⟨y, -, hy⟩ := exists_of_mem_right (mapM_eq_ok_iff.1 hys).flip hx
    exact ⟨y, hy⟩
  · intro h
    cases hys : xs.mapM f with
    | ok ys => exact ⟨ys, rfl⟩
    | error e =>
        obtain ⟨before, x, after, -, rfl, -, hx⟩ := mapM_eq_error_iff.1 hys
        obtain ⟨y, hy⟩ := h x (by simp)
        rw [hx] at hy
        cases hy

/-- Two runs are the same if their steps are, as far as those steps do not end in one of the errors
that are left out. -/
theorem mapM_congr_unless {bad : ε → Prop} {f g : α → Except ε β} {xs : List α}
    (h : ∀ x ∈ xs, (∀ e, g x = .error e → ¬ bad e) → f x = g x)
    (hg : ∀ e, xs.mapM g = .error e → ¬ bad e) : xs.mapM f = xs.mapM g := by
  induction xs with
  | nil => rfl
  | cons x xs ih =>
      have hx : f x = g x := by
        refine h x List.mem_cons_self fun e he => hg e ?_
        exact mapM_cons_of_error he xs
      cases hgx : g x with
      | error e => rw [mapM_cons_of_error hgx, mapM_cons_of_error (hx.trans hgx)]
      | ok y =>
          rw [mapM_cons_of_ok hgx, mapM_cons_of_ok (hx.trans hgx)]
          rw [mapM_cons_of_ok hgx] at hg
          rw [ih (fun x' hx' => h x' (List.mem_cons_of_mem x hx'))]
          intro e he
          exact hg e (by rw [he]; rfl)

end SiteCompiler.Sequence
