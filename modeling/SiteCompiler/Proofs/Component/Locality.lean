import SiteCompiler.Proofs.Component.Source
set_option autoImplicit false

/-! # What a scan reads does not depend on what follows

A tag, a comment and a raw text are found by searches that may run through the rest of the
document. Once such a search has ended, the text behind the place where it ended plays no part:
this module says so for each reader, in the form "what was read before `rest` is also read before
`more`". Plain text is the exception, since `<` at its end may begin a construct together with what
follows; `construct?_append_of_none` says which four endings these are.
-/

namespace SiteCompiler.Component

/-! ## Characters -/

/-- A capital letter becomes a small one, which stays. -/
theorem toLower_of_isUpper {c : Char} (h : c.isUpper = true) :
    c.toLower.isLower = true ∧ c.toLower.toLower = c.toLower := by
  have hletters : ∀ n < 91, 65 ≤ n → (Char.ofNat n).toLower.isLower = true ∧
      (Char.ofNat n).toLower.toLower = (Char.ofNat n).toLower := by
    decide
  have hcode : 65 ≤ c.toNat ∧ c.toNat ≤ 90 := of_decide_eq_true h
  have hletter := hletters c.toNat (Nat.lt_succ_of_le hcode.2) hcode.1
  rwa [Char.ofNat_toNat] at hletter

/-- Other characters stay. -/
theorem toLower_of_not_isUpper {c : Char} (h : ¬ c.isUpper = true) : c.toLower = c :=
  dif_neg fun hcode => h (decide_eq_true hcode)

theorem isAlpha_of_isUpper {c : Char} (h : c.isUpper = true) : c.isAlpha = true :=
  (Bool.or_eq_true _ _).mpr (Or.inl h)

theorem isAlpha_of_isLower {c : Char} (h : c.isLower = true) : c.isAlpha = true :=
  (Bool.or_eq_true _ _).mpr (Or.inr h)

/-- Only lower-case letters are reached from another character. -/
theorem eq_of_toLower_eq {c d : Char} (h : c.toLower = d) (hd : d.isLower = false) : c = d := by
  by_cases hupper : c.isUpper = true
  · have hlower := (toLower_of_isUpper hupper).1
    rw [h, hd] at hlower
    cases hlower
  · rw [← h, toLower_of_not_isUpper hupper]

theorem lowercase_lowercase (cs : List Char) :
    Text.lowercase (Text.lowercase cs) = Text.lowercase cs := by
  rw [Text.lowercase, Text.lowercase, List.map_map]
  refine List.map_congr_left fun c _ => ?_
  by_cases hupper : c.isUpper = true
  · exact (toLower_of_isUpper hupper).2
  · rw [Function.comp_apply, toLower_of_not_isUpper hupper, toLower_of_not_isUpper hupper]

theorem isAlpha_toLower (c : Char) : c.toLower.isAlpha = c.isAlpha := by
  by_cases hupper : c.isUpper = true
  · rw [isAlpha_of_isLower (toLower_of_isUpper hupper).1, isAlpha_of_isUpper hupper]
  · rw [toLower_of_not_isUpper hupper]

theorem isTagNameChar_toLower (c : Char) : isTagNameChar c.toLower = isTagNameChar c := by
  by_cases hupper : c.isUpper = true
  · simp only [isTagNameChar, Char.isAlphanum, isAlpha_toLower, isAlpha_of_isUpper hupper,
      Bool.true_or]
  · rw [toLower_of_not_isUpper hupper]

theorem beginsEndTag_append (name a x y : List Char) (h : name.length + 2 ≤ a.length) :
    beginsEndTag name (a ++ x) = beginsEndTag name (a ++ y) := by
  simp only [beginsEndTag, List.take_append_of_le_length h]

/-! ## Tags -/

/-- A tag name: a letter and then the characters of a tag name. -/
def IsTagName (name : List Char) : Prop :=
  ∃ c cs, name = c :: cs ∧ c.isAlpha = true ∧ ∀ d ∈ cs, isTagNameChar d = true

theorem IsTagName.lowercase {name : List Char} (h : IsTagName name) :
    IsTagName (Text.lowercase name) := by
  obtain ⟨c, cs, rfl, hc, hcs⟩ := h
  refine ⟨c.toLower, Text.lowercase cs, rfl, by rw [isAlpha_toLower, hc], ?_⟩
  intro d hd
  obtain ⟨d', hd', rfl⟩ := List.mem_map.1 hd
  rw [isTagNameChar_toLower, hcs d' hd']

theorem tagName?_eq_some_iff {cs name rest : List Char} :
    tagName? cs = some (name, rest) ↔
      IsTagName name ∧ (∀ c, rest.head? = some c → isTagNameChar c = false) ∧
        cs = name ++ rest := by
  constructor
  · intro h
    have happ := append_of_tagName? h
    cases cs with
    | nil => cases h
    | cons c cs =>
        simp only [tagName?] at h
        split at h
        · next hc =>
            cases h
            refine ⟨⟨c, _, rfl, hc, fun d hd => List.mem_takeWhile_imp hd⟩, ?_, happ.symm⟩
            intro d hd
            have := List.head?_dropWhile_not isTagNameChar cs
            rw [hd] at this
            simpa using this
        · cases h
  · rintro ⟨⟨c, cs', rfl, hc, hcs'⟩, hrest, rfl⟩
    rw [List.cons_append, tagName?, if_pos hc, Text.takeWhile_append_run hcs' hrest,
      Text.dropWhile_append_run hcs' hrest]

theorem tagRest?_append : ∀ {quote : Option Char} {cs inside rest : List Char},
    tagRest? quote cs = some (inside, rest) →
      ∀ more, tagRest? quote (inside ++ '>' :: more) = some (inside, more)
  | quote, [], _, _, h, _ => by cases quote <;> cases h
  | some quote, c :: cs, _, _, h, more => by
      obtain ⟨⟨a, b⟩, hrest, heq⟩ := Option.map_eq_some_iff.1 h
      cases heq
      simp [tagRest?, tagRest?_append hrest more]
  | none, c :: cs, _, _, h, more => by
      simp only [tagRest?] at h
      split at h
      · cases h
        simp [tagRest?]
      · next hc =>
          obtain ⟨⟨a, b⟩, hrest, heq⟩ := Option.map_eq_some_iff.1 h
          cases heq
          simp [tagRest?, hc, tagRest?_append hrest more]

/-! ## Plain text -/

/-- Where the name of a tag begins, if the text stands behind a `<`. -/
def nameStart? : List Char → Option Char
  | '/' :: cs => cs.head?
  | cs => cs.head?

theorem nameStart?_of_ne_slash {c : Char} (h : c ≠ '/') (cs : List Char) :
    nameStart? (c :: cs) = some c := by
  unfold nameStart?
  split
  · next heq => exact absurd (List.cons.inj heq).1 h
  · rfl

theorem tagName?_eq_none_iff {cs : List Char} :
    tagName? cs = none ↔ ∀ c, cs.head? = some c → c.isAlpha = false := by
  cases cs with
  | nil => simp [tagName?]
  | cons c cs => simp [tagName?]

theorem tagHead?_of_slash (cs : List Char) :
    tagHead? ('/' :: cs) = (tagName? cs).map fun cut => (true, cut.1, cut.2) := rfl

theorem tagHead?_of_ne_slash {cs : List Char} (h : cs.head? ≠ some '/') :
    tagHead? cs = (tagName? cs).map fun cut => (false, cut.1, cut.2) := by
  unfold tagHead?
  split
  · simp at h
  · rfl

theorem tagHead?_eq_none_iff {cs : List Char} :
    tagHead? cs = none ↔ ∀ c, nameStart? cs = some c → c.isAlpha = false := by
  unfold tagHead?
  split
  · rw [Option.map_eq_none_iff, tagName?_eq_none_iff]
    rfl
  · next hslash =>
      rw [Option.map_eq_none_iff, tagName?_eq_none_iff]
      unfold nameStart?
      split
      · next rest => exact absurd rfl (hslash rest)
      · rfl

/-- A `<` is plain text if neither a comment nor the name of a tag begins behind it. -/
theorem construct?_eq_none_iff {cs : List Char} :
    construct? cs = none ↔
      ¬ ['!', '-', '-'] <+: cs ∧ ∀ c, nameStart? cs = some c → c.isAlpha = false := by
  rw [← tagHead?_eq_none_iff, List.prefix_iff_exists_append_eq]
  unfold construct?
  split
  · next inner hpre =>
      have hinner := List.append_eq_of_isPrefixOf?_eq_some hpre
      have hcomment : ∃ l, ['!', '-', '-'] ++ l = cs := ⟨inner, hinner⟩
      split <;> exact iff_of_false (by simp) fun h => h.1 hcomment
  · next hpre =>
      have hcomment : ¬ ∃ l, ['!', '-', '-'] ++ l = cs := by
        rintro ⟨l, hl⟩
        rw [List.isPrefixOf?_eq_some_iff_append_eq.2 hl] at hpre
        cases hpre
      split
      · next hnone => exact iff_of_true rfl ⟨hcomment, hnone⟩
      · next closing name rest hsome => split <;> simp [hsome]

/-- What a construct can begin with and be cut off after. -/
def openEndings : List (List Char) := ["<".toList, "</".toList, "<!".toList, "<!-".toList]

/-- Whether a text ends in what may be the beginning of a construct. -/
def endsOpen (cs : List Char) : Bool := openEndings.any fun ending => ending.isSuffixOf cs

theorem endsOpen_append {cs : List Char} (before : List Char) (h : endsOpen cs = true) :
    endsOpen (before ++ cs) = true := by
  simp only [endsOpen, List.any_eq_true, List.isSuffixOf_iff_suffix] at h ⊢
  obtain ⟨ending, hmem, hsuffix⟩ := h
  exact ⟨ending, hmem, hsuffix.trans (List.suffix_append before cs)⟩

/-- Behind a `<`, the first character that can begin the name of a tag is in the text, unless the
text is so short that it is one of two open endings. -/
theorem nameStart?_append {cs : List Char} (hopen : endsOpen ('<' :: cs) = false)
    (more : List Char) : nameStart? (cs ++ more) = nameStart? cs := by
  cases cs with
  | nil => exact absurd hopen (by decide)
  | cons a cs =>
      by_cases ha : a = '/'
      · subst ha
        cases cs with
        | nil => exact absurd hopen (by decide)
        | cons b cs => rfl
      · rw [List.cons_append, nameStart?_of_ne_slash ha, nameStart?_of_ne_slash ha]

theorem commentStart_append {cs : List Char} (hopen : endsOpen ('<' :: cs) = false)
    (more : List Char) : ['!', '-', '-'] <+: cs ++ more ↔ ['!', '-', '-'] <+: cs := by
  match cs with
  | [] => exact absurd hopen (by decide)
  | [a] =>
      have ha : a ≠ '!' := by rintro rfl; exact absurd hopen (by decide)
      simp [List.cons_prefix_cons, ha.symm]
  | [a, b] =>
      have hab : ¬ ('!' = a ∧ '-' = b) := by
        rintro ⟨rfl, rfl⟩
        exact absurd hopen (by decide)
      simp only [List.cons_append, List.cons_prefix_cons, List.prefix_nil]
      tauto
  | a :: b :: c :: cs => exact Text.prefix_append_iff (by simp) more

/-- Whether a `<` begins a construct is settled by the text after it, unless that text is so short
that the `<` and it are one of the open endings. -/
theorem construct?_append_of_none {cs rest : List Char} (h : construct? (cs ++ rest) = none)
    (hopen : endsOpen ('<' :: cs) = false) (more : List Char) :
    construct? (cs ++ more) = none := by
  rw [construct?_eq_none_iff, commentStart_append hopen, nameStart?_append hopen] at h ⊢
  exact h

end SiteCompiler.Component
