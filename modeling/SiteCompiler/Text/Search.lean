set_option autoImplicit false

/-! # Finding and replacing the first occurrence

Documents are searched from the left for the first place where something holds: where a comment
ends, where a raw-text element is closed, where a placeholder stands. `breakBefore?` is that
search; the cut it returns always reassembles the text (`append_of_breakBefore?`).
-/

namespace SiteCompiler.Text

/-- Cuts a text before the first of its tails that satisfies `p` (the empty tail included). -/
def breakBefore? (p : List Char → Bool) : List Char → Option (List Char × List Char)
  | [] => if p [] then some ([], []) else none
  | c :: cs =>
      if p (c :: cs) then some ([], c :: cs)
      else (breakBefore? p cs).map fun cut => (c :: cut.1, cut.2)

/-- Both parts of a cut, put together, are the text. -/
theorem append_of_breakBefore? {p : List Char → Bool} :
    ∀ {cs a b : List Char}, breakBefore? p cs = some (a, b) → a ++ b = cs
  | [], a, b, h => by
      simp only [breakBefore?] at h
      split at h
      · cases h; rfl
      · cases h
  | c :: cs, a, b, h => by
      simp only [breakBefore?] at h
      split at h
      · cases h; rfl
      · obtain ⟨⟨a', b'⟩, hcut, heq⟩ := Option.map_eq_some_iff.1 h
        cases heq
        simp [append_of_breakBefore? hcut]

/-- The tail at which a text is cut satisfies the predicate. -/
theorem tail_of_breakBefore? {p : List Char → Bool} :
    ∀ {cs a b : List Char}, breakBefore? p cs = some (a, b) → p b = true
  | [], a, b, h => by
      simp only [breakBefore?] at h
      split at h
      · cases h; assumption
      · cases h
  | c :: cs, a, b, h => by
      simp only [breakBefore?] at h
      split at h
      · cases h; assumption
      · obtain ⟨⟨a', b'⟩, hcut, heq⟩ := Option.map_eq_some_iff.1 h
        cases heq
        exact tail_of_breakBefore? hcut

/-- Cuts a text at the first occurrence of `needle`: what stands before and after it. -/
def breakOn? (needle cs : List Char) : Option (List Char × List Char) :=
  (breakBefore? needle.isPrefixOf cs).map fun cut => (cut.1, cut.2.drop needle.length)

/-- Whether `needle` occurs in the text. -/
def occursIn (needle cs : List Char) : Bool := (breakOn? needle cs).isSome

/-- The text with the first occurrence of `needle` replaced, if there is one. -/
def replaceFirst (needle replacement cs : List Char) : List Char :=
  match breakOn? needle cs with
  | some (before, after) => before ++ replacement ++ after
  | none => cs

/-- The text with its ASCII letters in lower case. -/
def lowercase (cs : List Char) : List Char := cs.map Char.toLower

/-- The number of bytes of the text in UTF-8. -/
def utf8Length : List Char → Nat
  | [] => 0
  | c :: cs => c.utf8Size + utf8Length cs

end SiteCompiler.Text
