import SiteCompiler.Text.Search
import Mathlib.Data.List.Infix
set_option autoImplicit false

/-! # Occurrences of a text

A search finds a text exactly if it occurs (`occursIn_iff`), and the first occurrence is where it
is, whatever stands behind it (`breakOn?_append`). Replacing it leaves the occurrences of another
text alone that cannot overlap with it (`occursIn_replaceFirst`).
-/

namespace SiteCompiler.Text

/-! ## Runs of characters -/

section Runs

variable {p : Char → Bool} {run rest : List Char}

/-- A run of characters of one kind ends in front of a character that is not of this kind. -/
theorem takeWhile_append_run (hrun : ∀ c ∈ run, p c = true)
    (hrest : ∀ c, rest.head? = some c → p c = false) : (run ++ rest).takeWhile p = run := by
  rw [List.takeWhile_append_of_pos hrun]
  cases rest with
  | nil => simp
  | cons c rest => simp [hrest c rfl]

theorem dropWhile_append_run (hrun : ∀ c ∈ run, p c = true)
    (hrest : ∀ c, rest.head? = some c → p c = false) : (run ++ rest).dropWhile p = rest := by
  rw [List.dropWhile_append_of_pos hrun]
  cases rest with
  | nil => rfl
  | cons c rest => simp [hrest c rfl]

end Runs

/-! ## Searches -/

/-- A search for a text is a search for the first tail that begins with it. -/
theorem breakOn?_iff_breakBefore? {needle cs before after : List Char} :
    breakOn? needle cs = some (before, after) ↔
      breakBefore? needle.isPrefixOf cs = some (before, needle ++ after) := by
  rw [breakOn?, Option.map_eq_some_iff]
  constructor
  · rintro ⟨⟨a, b⟩, hbreak, heq⟩
    obtain ⟨rest, rfl⟩ := List.isPrefixOf_iff_prefix.1 (tail_of_breakBefore? hbreak)
    rw [List.drop_left] at heq
    cases heq
    exact hbreak
  · intro hbreak
    exact ⟨_, hbreak, by rw [List.drop_left]⟩

theorem append_of_breakOn? {needle cs before after : List Char}
    (h : breakOn? needle cs = some (before, after)) : before ++ needle ++ after = cs := by
  rw [List.append_assoc]
  exact append_of_breakBefore? (breakOn?_iff_breakBefore?.1 h)

/-- A search looks no further than `k` characters beyond the place where it ends. -/
theorem breakBefore?_append {p : List Char → Bool} {k : Nat}
    (hp : ∀ a x y : List Char, k ≤ a.length → p (a ++ x) = p (a ++ y))
    {body found rest : List Char} (hk : k ≤ found.length)
    (h : breakBefore? p (body ++ found ++ rest) = some (body, found ++ rest))
    (more : List Char) :
    breakBefore? p (body ++ found ++ more) = some (body, found ++ more) := by
  have hcons : ∀ {c : Char} {cs : List Char}, breakBefore? p (c :: cs)
      = if p (c :: cs) then some ([], c :: cs)
        else (breakBefore? p cs).map fun cut => (c :: cut.1, cut.2) := rfl
  induction body with
  | nil =>
      have hfound : p (found ++ rest) = true := tail_of_breakBefore? h
      rw [hp found rest more hk] at hfound
      rw [List.nil_append]
      cases hcs : found ++ more with
      | nil => rw [hcs] at hfound; simp [breakBefore?, hfound]
      | cons c cs => rw [hcs] at hfound; rw [hcons, if_pos hfound]
  | cons b body ih =>
      simp only [List.cons_append, hcons] at h ⊢
      split at h
      · cases h
      · next hb =>
          obtain ⟨⟨x, y⟩, hcut, heq⟩ := Option.map_eq_some_iff.1 h
          simp only [Prod.mk.injEq, List.cons.injEq, true_and] at heq
          obtain ⟨rfl, rfl⟩ := heq
          -- The test sees the same characters before `rest` and before `more`.
          have hsame := hp (b :: (x ++ found)) rest more (by simp; omega)
          simp only [List.cons_append] at hsame
          rw [if_neg (by rw [← hsame]; exact hb), ih hcut]
          rfl

theorem prefix_append_iff {needle a : List Char} (h : needle.length ≤ a.length) (x : List Char) :
    needle <+: a ++ x ↔ needle <+: a :=
  ⟨fun hx => List.prefix_of_prefix_length_le hx (List.prefix_append a x) h,
    fun ha => List.prefix_append_of_prefix ha⟩

/-- The first occurrence of a text is where it is, whatever stands behind it. -/
theorem breakOn?_append {needle cs before after : List Char}
    (h : breakOn? needle cs = some (before, after)) (more : List Char) :
    breakOn? needle (before ++ needle ++ more) = some (before, more) := by
  have hbreak := breakOn?_iff_breakBefore?.1 h
  rw [← append_of_breakOn? h] at hbreak
  have hlocal : ∀ a x y : List Char, needle.length ≤ a.length →
      needle.isPrefixOf (a ++ x) = needle.isPrefixOf (a ++ y) := by
    intro a x y ha
    rw [Bool.eq_iff_iff, List.isPrefixOf_iff_prefix, List.isPrefixOf_iff_prefix,
      prefix_append_iff ha, prefix_append_iff ha]
  exact breakOn?_iff_breakBefore?.2 (breakBefore?_append hlocal (Nat.le_refl _) hbreak more)

/-- A search stops at the first place at which the test holds. -/
theorem length_le_of_breakBefore? {p : List Char → Bool} {cs a b a' b' : List Char}
    (h : breakBefore? p cs = some (a, b)) (hcs : a' ++ b' = cs) (hb' : p b' = true) :
    a.length ≤ a'.length := by
  induction cs generalizing a a' with
  | nil =>
      have hnil := List.append_eq_nil_iff.1 (append_of_breakBefore? h)
      rw [hnil.1]
      exact Nat.zero_le _
  | cons c cs ih =>
      simp only [breakBefore?] at h
      split at h
      · cases h
        exact Nat.zero_le _
      · next hc =>
          obtain ⟨⟨x, y⟩, hcut, heq⟩ := Option.map_eq_some_iff.1 h
          cases heq
          cases a' with
          | nil =>
              obtain rfl : b' = c :: cs := hcs
              exact absurd hb' hc
          | cons c' a' =>
              obtain ⟨-, hcs⟩ := List.cons.inj hcs
              exact Nat.succ_le_succ (ih hcut hcs)

/-- A search that cannot stop inside a text together with what follows, and stops behind the text,
stops where the search of the text alone does, or else right behind it. -/
theorem breakBefore?_append_of_true {p : List Char → Bool} {cs more : List Char}
    (hp : ∀ a, a ≠ [] → p (a ++ more) = p a) (hnil : p [] = false) (hmore : p more = true) :
    breakBefore? p (cs ++ more)
      = some (((breakBefore? p cs).map fun cut => (cut.1, cut.2 ++ more)).getD (cs, more)) := by
  induction cs with
  | nil =>
      rw [List.nil_append, breakBefore?, hnil]
      cases more with
      | nil =>
          rw [hnil] at hmore
          cases hmore
      | cons c more =>
          rw [breakBefore?, if_pos hmore]
          rfl
  | cons c cs ih =>
      have hsame := hp (c :: cs) (List.cons_ne_nil c cs)
      rw [List.cons_append] at hsame
      rw [List.cons_append, breakBefore?, breakBefore?, hsame, ih]
      split
      · rfl
      · cases breakBefore? p cs <;> rfl

/-! ## Occurrences -/

theorem exists_breakBefore? {p : List Char → Bool} {found : List Char} (h : p found = true)
    (before : List Char) : ∃ cut, breakBefore? p (before ++ found) = some cut := by
  induction before with
  | nil =>
      cases found with
      | nil => exact ⟨([], []), by simp [breakBefore?, h]⟩
      | cons c cs => exact ⟨([], c :: cs), by simp [breakBefore?, h]⟩
  | cons c before ih =>
      obtain ⟨cut, hcut⟩ := ih
      rw [List.cons_append, breakBefore?]
      split
      · exact ⟨_, rfl⟩
      · rw [hcut]
        exact ⟨_, rfl⟩

/-- A search ends at the first place at which the test holds, if there is one. -/
theorem breakBefore?_eq_some_iff {p : List Char → Bool} {cs a b : List Char} :
    breakBefore? p cs = some (a, b) ↔ a ++ b = cs ∧ p b = true ∧
      ∀ a' b', a' ++ b' = cs → p b' = true → a.length ≤ a'.length := by
  constructor
  · intro h
    exact ⟨append_of_breakBefore? h, tail_of_breakBefore? h, fun _ _ => length_le_of_breakBefore? h⟩
  · rintro ⟨rfl, hb, hfirst⟩
    obtain ⟨⟨x, y⟩, hcut⟩ := exists_breakBefore? hb a
    have hxy := append_of_breakBefore? hcut
    have hle := hfirst x y hxy (tail_of_breakBefore? hcut)
    have hge := length_le_of_breakBefore? hcut rfl hb
    obtain ⟨rfl, rfl⟩ := List.append_inj hxy (Nat.le_antisymm hge hle)
    exact hcut

theorem breakBefore?_eq_none_iff {p : List Char → Bool} {cs : List Char} :
    breakBefore? p cs = none ↔ ∀ a b, a ++ b = cs → p b = false := by
  constructor
  · rintro h a b rfl
    rw [Bool.eq_false_iff]
    intro hb
    obtain ⟨cut, hcut⟩ := exists_breakBefore? hb a
    rw [h] at hcut
    cases hcut
  · intro h
    rw [Option.eq_none_iff_forall_ne_some]
    rintro ⟨a, b⟩ hcut
    have hb := tail_of_breakBefore? hcut
    rw [h a b (append_of_breakBefore? hcut)] at hb
    cases hb

/-- A search for a text finds its first occurrence. -/
theorem breakOn?_eq_some_iff {needle cs before after : List Char} :
    breakOn? needle cs = some (before, after) ↔ before ++ needle ++ after = cs ∧
      ∀ before' after', before' ++ needle ++ after' = cs → before.length ≤ before'.length := by
  have hpre (rest : List Char) : needle.isPrefixOf (needle ++ rest) = true :=
    List.isPrefixOf_iff_prefix.2 (List.prefix_append _ _)
  rw [breakOn?_iff_breakBefore?, breakBefore?_eq_some_iff, List.append_assoc]
  constructor
  · rintro ⟨hcs, -, hfirst⟩
    refine ⟨hcs, fun before' after' hcs' => hfirst before' (needle ++ after') ?_ (hpre after')⟩
    rwa [← List.append_assoc]
  · rintro ⟨hcs, hfirst⟩
    refine ⟨hcs, hpre after, fun before' found hcs' hfound => ?_⟩
    obtain ⟨after', rfl⟩ := List.isPrefixOf_iff_prefix.1 hfound
    rw [← List.append_assoc] at hcs'
    exact hfirst before' after' hcs'

theorem occursIn_iff {needle cs : List Char} :
    occursIn needle cs = true ↔ ∃ before after, cs = before ++ needle ++ after := by
  rw [occursIn, Option.isSome_iff_exists]
  constructor
  · rintro ⟨⟨before, after⟩, h⟩
    exact ⟨before, after, (append_of_breakOn? h).symm⟩
  · rintro ⟨before, after, rfl⟩
    have hfound : needle.isPrefixOf (needle ++ after) = true :=
      List.isPrefixOf_iff_prefix.2 (List.prefix_append _ _)
    obtain ⟨cut, hcut⟩ := exists_breakBefore? hfound before
    rw [← List.append_assoc] at hcut
    exact ⟨_, by rw [breakOn?, hcut]; rfl⟩

/-- A text that begins with a character that it contains nowhere else is found where it was put,
if it does not occur in what stands in front of it. -/
theorem breakOn?_append_of_not_occursIn {d : Char} {ns cs : List Char} (hns : d ∉ ns)
    (hcs : occursIn (d :: ns) cs = false) (more : List Char) :
    breakOn? (d :: ns) (cs ++ d :: ns ++ more) = some (cs, more) := by
  have hnone : breakBefore? (d :: ns).isPrefixOf cs = none := by
    simpa [occursIn, breakOn?] using hcs
  rw [breakOn?_iff_breakBefore?, List.append_assoc, breakBefore?_append_of_true ?_ rfl ?_, hnone]
  · rfl
  · intro a ha
    obtain ⟨c, a, rfl⟩ := List.exists_cons_of_ne_nil ha
    rw [Bool.eq_iff_iff, List.isPrefixOf_iff_prefix, List.isPrefixOf_iff_prefix]
    refine ⟨fun hpre => ?_, List.prefix_append_of_prefix⟩
    -- An occurrence that reaches over the end of `a` would have `d` inside.
    obtain ⟨hc, rest, hrest⟩ := List.cons_prefix_cons.1 hpre
    refine List.cons_prefix_cons.2 ⟨hc, ?_⟩
    rcases List.append_eq_append_iff.1 hrest with ⟨gap, ha, -⟩ | ⟨gap, hns', hgap⟩
    · exact ⟨gap, ha.symm⟩
    · cases gap with
      | nil => rw [hns', List.append_nil]
      | cons c gap =>
          obtain ⟨rfl, -⟩ := List.cons.inj hgap
          exact absurd (hns' ▸ by simp) hns
  · exact List.isPrefixOf_iff_prefix.2 (List.prefix_append _ _)

theorem replaceFirst_of_occursIn {needle cs : List Char} (h : occursIn needle cs = true)
    (replacement : List Char) : ∃ before after, cs = before ++ needle ++ after ∧
      replaceFirst needle replacement cs = before ++ replacement ++ after := by
  rw [occursIn, Option.isSome_iff_exists] at h
  obtain ⟨⟨before, after⟩, hcut⟩ := h
  refine ⟨before, after, (append_of_breakOn? hcut).symm, ?_⟩
  rw [replaceFirst, hcut]

/-- Two texts that both begin with a character that they contain nowhere else do not overlap, unless
one begins with the other. -/
theorem occurrence_apart {d : Char} {ns ms before after before' after' : List Char} (hns : d ∉ ns)
    (hms : d ∉ ms) (hpre : ¬ ms <+: ns) (hpre' : ¬ ns <+: ms)
    (h : before ++ d :: ns ++ after = before' ++ d :: ms ++ after') :
    (∃ gap, before = before' ++ d :: ms ++ gap) ∨ ∃ gap, after = gap ++ d :: ms ++ after' := by
  rw [List.append_assoc, List.append_assoc] at h
  -- Whichever text begins first, the other one can only begin behind its end.
  have hbehind : ∀ {ks ls xs ys gap : List Char}, d ∉ ks → ¬ ls <+: ks → ¬ ks <+: ls →
      d :: ks ++ xs = gap ++ (d :: ls ++ ys) → ∃ more, gap = d :: ks ++ more := by
    intro ks ls xs ys gap hks hlk hkl heq
    cases gap with
    | nil =>
        have hsame : ks ++ xs = ls ++ ys := (List.cons.inj heq).2
        rcases List.prefix_or_prefix_of_prefix (List.prefix_append ks xs)
          (hsame ▸ List.prefix_append ls ys) with hpre | hpre
        · exact absurd hpre hkl
        · exact absurd hpre hlk
    | cons c gap =>
        obtain ⟨rfl, htail⟩ := List.cons.inj heq
        rcases List.append_eq_append_iff.1 htail with ⟨more, hgap, -⟩ | ⟨more, hks', hmore⟩
        · exact ⟨more, by rw [hgap]; rfl⟩
        · cases more with
          | nil => exact ⟨[], by rw [hks']; simp⟩
          | cons c' more =>
              obtain ⟨rfl, -⟩ := List.cons.inj hmore
              exact absurd (hks' ▸ by simp) hks
  rcases List.append_eq_append_iff.1 h with ⟨gap, hbefore', hgap⟩ | ⟨gap, hbefore, hgap⟩
  · obtain ⟨more, rfl⟩ := hbehind hns hpre hpre' hgap
    refine Or.inr ⟨more, ?_⟩
    simpa using hgap
  · obtain ⟨more, rfl⟩ := hbehind hms hpre' hpre hgap
    exact Or.inl ⟨more, by rw [hbefore, List.append_assoc]⟩

/-- Replacing a text leaves another one in place with which it cannot overlap. -/
theorem occursIn_replaceFirst {d : Char} {ns ms cs : List Char} (hns : d ∉ ns) (hms : d ∉ ms)
    (hpre : ¬ ms <+: ns) (hpre' : ¬ ns <+: ms) (h : occursIn (d :: ms) cs = true)
    (replacement : List Char) :
    occursIn (d :: ms) (replaceFirst (d :: ns) replacement cs) = true := by
  by_cases hocc : occursIn (d :: ns) cs = true
  · obtain ⟨before, after, hcs, hreplaced⟩ := replaceFirst_of_occursIn hocc replacement
    obtain ⟨before', after', hcs'⟩ := occursIn_iff.1 h
    rw [hreplaced, occursIn_iff]
    rcases occurrence_apart hns hms hpre hpre' (hcs.symm.trans hcs') with ⟨gap, rfl⟩ | ⟨gap, rfl⟩
    · exact ⟨before', gap ++ replacement ++ after, by simp⟩
    · exact ⟨before ++ replacement ++ gap, after', by simp⟩
  · have hnone : breakOn? (d :: ns) cs = none := by
      rw [occursIn, Bool.not_eq_true] at hocc
      exact Option.isSome_eq_false_iff.1 hocc |> Option.isNone_iff_eq_none.1
    rw [replaceFirst, hnone]
    exact h

end SiteCompiler.Text
