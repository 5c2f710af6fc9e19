import SiteCompiler.Proofs.Component.Closed
set_option autoImplicit false

/-! # Where a tag ends

A tag ends at the first `>` that no quotes enclose. A scan pairs every quote with the next equal
one, wherever in the tag it stands, so the tag ends at a `>` exactly if the quotes in front of it
are paired in this way and enclose all that looks like an end before (`Paired`,
`tagRest?_eq_some_iff`).

The quotes of a tag need not enclose anything: a value is quoted if the quote stands behind `=`, and
an apostrophe in a value without quotes is a character like any other. Where a tag has only the
quotes of its values (`OnlyValues`), it ends at the first `>` outside these values. Any other quote
takes all that follows, up to the next equal quote, into the tag, and where there is none, the tag
does not end and the rest of the document is lost with it (`endsBehind_iff_paired`).
-/

namespace SiteCompiler.Component

/-! ## Quotes in pairs -/

/-- What a value can be enclosed in. -/
def IsQuote (c : Char) : Prop := c = '"' ∨ c = '\''

instance (c : Char) : Decidable (IsQuote c) := inferInstanceAs (Decidable (_ ∨ _))

/-- A text in which every quote is paired with the next equal one, and no `>` stands outside of such
a pair. What a quote encloses may hold the other quote. -/
inductive Paired : List Char → Prop
  | nil : Paired []
  | char {c : Char} {u : List Char} : ¬ IsQuote c → c ≠ '>' → Paired u → Paired (c :: u)
  | quoted {q : Char} {v u : List Char} :
      IsQuote q → q ∉ v → Paired u → Paired (q :: (v ++ q :: u))

theorem Paired.append {u w : List Char} (hu : Paired u) (hw : Paired w) : Paired (u ++ w) := by
  induction hu with
  | nil => exact hw
  | char hquote hend _ ih => exact .char hquote hend ih
  | @quoted q v u hquote hv _ ih =>
      have hpair := Paired.quoted hquote hv ih
      simpa using hpair

theorem paired_of_plain {u : List Char} (h : ∀ c ∈ u, ¬ IsQuote c ∧ c ≠ '>') : Paired u := by
  induction u with
  | nil => exact .nil
  | cons c u ih =>
      obtain ⟨hc, hu⟩ := List.forall_mem_cons.1 h
      exact .char hc.1 hc.2 (ih hu)

theorem paired_quoted {q : Char} {v : List Char} (hq : IsQuote q) (hv : q ∉ v) :
    Paired (q :: (v ++ [q])) :=
  .quoted hq hv .nil

/-! ## The search for the end -/

theorem tagRest?_char {c : Char} (hquote : ¬ IsQuote c) (hend : c ≠ '>') (cs : List Char) :
    tagRest? none (c :: cs) = (tagRest? none cs).map fun cut => (c :: cut.1, cut.2) := by
  have hopen : ¬ (c = '"' ∨ c = '\'') := hquote
  simp only [tagRest?, if_neg hend, if_neg hopen]

theorem tagRest?_quote {q : Char} (hq : IsQuote q) (cs : List Char) :
    tagRest? none (q :: cs) = (tagRest? (some q) cs).map fun cut => (q :: cut.1, cut.2) := by
  have hend : q ≠ '>' := by
    rintro rfl
    revert hq
    decide
  have hopen : q = '"' ∨ q = '\'' := hq
  simp only [tagRest?, if_neg hend, if_pos hopen]

/-- A quote that does not occur any more encloses the rest of the text. -/
theorem tagRest?_unpaired {q : Char} {cs : List Char} (h : q ∉ cs) :
    tagRest? (some q) cs = none := by
  induction cs with
  | nil => rfl
  | cons c cs ih =>
      obtain ⟨hc, hcs⟩ := List.ne_and_not_mem_of_not_mem_cons h
      simp only [tagRest?, if_neg (Ne.symm hc), ih hcs, Option.map_none]

theorem tagRest?_enclosed {q : Char} {v : List Char} (h : q ∉ v) (cs : List Char) :
    tagRest? (some q) (v ++ q :: cs)
      = (tagRest? none cs).map fun cut => (v ++ q :: cut.1, cut.2) := by
  induction v with
  | nil => simp [tagRest?]
  | cons c v ih =>
      obtain ⟨hc, hv⟩ := List.ne_and_not_mem_of_not_mem_cons h
      rw [List.cons_append, tagRest?, if_neg (Ne.symm hc), ih hv, Option.map_map]
      rfl

/-- The search passes over a text with paired quotes. -/
theorem Paired.tagRest?_append {u : List Char} (h : Paired u) (cs : List Char) :
    tagRest? none (u ++ cs) = (tagRest? none cs).map fun cut => (u ++ cut.1, cut.2) := by
  induction h with
  | nil => simp
  | char hquote hend _ ih =>
      rw [List.cons_append, tagRest?_char hquote hend, ih, Option.map_map]
      rfl
  | @quoted q v u hquote hv _ ih =>
      have hparts : q :: (v ++ q :: u) ++ cs = q :: (v ++ q :: (u ++ cs)) := by simp
      rw [hparts, tagRest?_quote hquote, tagRest?_enclosed hv, ih, Option.map_map, Option.map_map]
      congr 1
      funext cut
      simp

/-- The text in front of the end that is found has its quotes in pairs. -/
theorem paired_of_tagRest? {cs u rest : List Char} (h : tagRest? none cs = some (u, rest)) :
    Paired u := by
  -- By induction on the length: behind a quote the search goes on behind the next equal one.
  induction hn : cs.length using Nat.strong_induction_on generalizing cs u rest with
  | _ n ih =>
      cases cs with
      | nil => cases h
      | cons c cs =>
          rw [List.length_cons] at hn
          by_cases hquote : IsQuote c
          · rw [tagRest?_quote hquote] at h
            obtain ⟨⟨inside, rest'⟩, hinside, heq⟩ := Option.map_eq_some_iff.1 h
            cases heq
            by_cases hmem : c ∈ cs
            · obtain ⟨v, later, rfl, hv⟩ := List.eq_append_cons_of_mem hmem
              rw [tagRest?_enclosed hv] at hinside
              obtain ⟨⟨u, rest''⟩, hlater, heq⟩ := Option.map_eq_some_iff.1 hinside
              cases heq
              rw [List.length_append, List.length_cons] at hn
              exact .quoted hquote hv (ih later.length (by omega) hlater rfl)
            · rw [tagRest?_unpaired hmem] at hinside
              cases hinside
          · by_cases hend : c = '>'
            · rw [hend, tagRest?, if_pos rfl] at h
              cases h
              exact .nil
            · rw [tagRest?_char hquote hend] at h
              obtain ⟨⟨u, rest'⟩, hlater, heq⟩ := Option.map_eq_some_iff.1 h
              cases heq
              exact .char hquote hend (ih cs.length (by omega) hlater rfl)

/-- **The end of a tag**: the `>` in front of which quotes are in pairs and enclose every other
`>`. -/
theorem tagRest?_eq_some_iff {cs u rest : List Char} :
    tagRest? none cs = some (u, rest) ↔ Paired u ∧ cs = u ++ '>' :: rest := by
  constructor
  · intro h
    exact ⟨paired_of_tagRest? h, (append_of_tagRest? h).symm⟩
  · rintro ⟨hpaired, rfl⟩
    rw [hpaired.tagRest?_append, tagRest?, if_pos rfl]
    simp

theorem tagRest?_eq_none_iff {cs : List Char} :
    tagRest? none cs = none ↔ ∀ u rest, cs = u ++ '>' :: rest → ¬ Paired u := by
  simp only [Option.eq_none_iff_forall_ne_some, Prod.forall, ne_eq, tagRest?_eq_some_iff, not_and']

instance (u : List Char) : Decidable (Paired u) :=
  decidable_of_iff (tagRest? none (u ++ ['>']) = some (u, [])) (by
    simp [tagRest?_eq_some_iff])

/-! ## The quotes of values -/

/-- A quote behind the text begins a value: there is a `=` in front of it, with nothing but blanks
between. -/
def BehindEquals (u : List Char) : Prop :=
  ∃ before blanks, u = before ++ '=' :: blanks ∧ ∀ c ∈ blanks, isBlank c = true

/-- A text in which quotes stand around values only, and a `>` stands only in such a value. A quoted
value begins behind `=`, blanks aside, and runs to the next equal quote. -/
inductive OnlyValues : List Char → Prop
  | nil : OnlyValues []
  | char {u : List Char} {c : Char} :
      OnlyValues u → ¬ IsQuote c → c ≠ '>' → OnlyValues (u ++ [c])
  | value {u v : List Char} {q : Char} :
      OnlyValues u → BehindEquals u → IsQuote q → q ∉ v → OnlyValues (u ++ q :: (v ++ [q]))

theorem OnlyValues.plain {u w : List Char} (hu : OnlyValues u)
    (hw : ∀ c ∈ w, ¬ IsQuote c ∧ c ≠ '>') : OnlyValues (u ++ w) := by
  induction w generalizing u with
  | nil => rwa [List.append_nil]
  | cons c w ih =>
      obtain ⟨hc, hw⟩ := List.forall_mem_cons.1 hw
      rw [List.append_cons]
      exact ih (hu.char hc.1 hc.2) hw

/-- The quotes of values are in pairs. -/
theorem OnlyValues.paired {u : List Char} (h : OnlyValues u) : Paired u := by
  induction h with
  | nil => exact .nil
  | char _ hquote hend ih => exact ih.append (.char hquote hend .nil)
  | value _ _ hquote hv ih => exact ih.append (paired_quoted hquote hv)

/-! ## A tag behind a document -/

section OpenTag

variable (a : String) (closing : Bool) (name source : List Char)

/-- A tag opened behind a document: `<` or `</`, its name, and what follows the name. -/
def openTag : String :=
  a ++ String.ofList ('<' :: ((if closing then ['/'] else []) ++ name ++ source))

/-- The tag that is opened behind the document is found, and ends with the `>` behind `u`. -/
def EndsBehind (u : List Char) : Prop :=
  ∃ pieces, scan (openTag a closing name source).toList
    = scan a.toList ++ .tag ⟨closing, name, u⟩ :: pieces

/-- The tag that is opened behind the document takes up all that follows. -/
def NeverEnds : Prop :=
  scan (openTag a closing name source).toList = scan a.toList
    ++ [.unclosed ('<' :: ((if closing then ['/'] else []) ++ name ++ source))]

variable {a closing name source}

theorem exists_withRawText_eq_cons (t : Tag) (cs : List Char) :
    ∃ pieces, (withRawText t cs).1 = .tag t :: pieces := by
  unfold withRawText
  split
  · split
    · exact ⟨_, rfl⟩
    · exact ⟨_, rfl⟩
  · exact ⟨_, rfl⟩

theorem endsBehind_of_tagRest? {u rest : List Char} (ha : Closed a) (hname : IsTagName name)
    (hsource : ∀ c, source.head? = some c → isTagNameChar c = false)
    (h : tagRest? none source = some (u, rest)) : EndsBehind a closing name source u := by
  have hread := readable_of_tagHead? (tagHead?_of_isTagName hname hsource closing) h
  obtain ⟨pieces, hpieces⟩ := exists_withRawText_eq_cons ⟨closing, name, u⟩ rest
  have hscan := hread.scan_source rest
  rw [hpieces, List.cons_append] at hscan
  have hparts : (openTag a closing name source).toList
      = a.toList ++ ((Tag.mk closing name u).source ++ rest) := by
    simp [openTag, Tag.source, ← append_of_tagRest? h]
  exact ⟨_, by rw [hparts, scan_append_tag ha hscan]⟩

theorem neverEnds_of_tagRest? (ha : Closed a) (hname : IsTagName name)
    (hsource : ∀ c, source.head? = some c → isTagNameChar c = false)
    (h : tagRest? none source = none) : NeverEnds a closing name source := by
  have hconstruct := construct?_of_tagHead? (tagHead?_of_isTagName hname hsource closing)
  rw [h] at hconstruct
  have hscan := scan_cons_construct hconstruct
  rw [scan_plain List.not_mem_nil] at hscan
  -- The document goes on with a piece of its own, as the opened tag is no text.
  have hhead : ∀ more rest, scan ('<' :: ((if closing then ['/'] else []) ++ name ++ source))
      ≠ .text more :: rest := by
    intro more rest heq
    rw [hscan] at heq
    cases heq
  rw [NeverEnds, openTag, String.toList_append, String.toList_ofList, scan_append_lt ha hhead,
    hscan]
  rfl

/-- A tag has one end at most. -/
theorem EndsBehind.unique {u w : List Char} (hu : EndsBehind a closing name source u)
    (hw : EndsBehind a closing name source w) : u = w := by
  obtain ⟨pieces, hu⟩ := hu
  obtain ⟨others, hw⟩ := hw
  have htags := List.append_cancel_left (hu.symm.trans hw)
  injection htags with htag
  injection htag with htag
  injection htag

theorem EndsBehind.not_neverEnds {u : List Char} (hu : EndsBehind a closing name source u) :
    ¬ NeverEnds a closing name source := by
  obtain ⟨pieces, hu⟩ := hu
  intro hnever
  have hpieces := List.append_cancel_left (hu.symm.trans hnever)
  cases hpieces

theorem NeverEnds.extractComponents (h : NeverEnds a closing name source) :
    extractComponents (openTag a closing name source) = extractComponents a := by
  rw [extractComponents_eq, extractComponents_eq, h, componentsOf_append,
    componentsOf_cons_of_none rfl]
  exact List.append_nil _

variable (closing name source) in
/-- **Where a tag ends.** A tag that is opened behind a closed document ends at a `>` exactly if the
quotes in front of it are in pairs that enclose every other `>`; if there is no such `>`, it never
ends, and no components are listed but those in front of it. So it ends at the first `>` outside
quoted values if it has no quotes but those of values. Any other quote `q` takes the text up to the
next equal quote into the tag, and if there is none, the tag never ends. -/
theorem endsBehind_iff_paired (ha : Closed a) (hname : IsTagName name)
    (hsource : ∀ c, source.head? = some c → isTagNameChar c = false) :
    (∀ u rest, source = u ++ '>' :: rest → (EndsBehind a closing name source u ↔ Paired u)) ∧
    (NeverEnds a closing name source ↔ ∀ u rest, source = u ++ '>' :: rest → ¬ Paired u) ∧
    (NeverEnds a closing name source →
      extractComponents (openTag a closing name source) = extractComponents a) ∧
    (∀ u rest, source = u ++ '>' :: rest → OnlyValues u → EndsBehind a closing name source u) ∧
    ∀ u q w, source = u ++ q :: w → Paired u → IsQuote q →
      (q ∉ w → NeverEnds a closing name source) ∧
      ∀ v z, w = v ++ q :: z → q ∉ v → ∀ inside, EndsBehind a closing name source inside →
        ∃ t rest, inside = u ++ q :: (v ++ q :: t) ∧ z = t ++ '>' :: rest ∧ Paired t := by
  have hends : ∀ {u rest}, tagRest? none source = some (u, rest) →
      EndsBehind a closing name source u := endsBehind_of_tagRest? ha hname hsource
  have hnever : tagRest? none source = none → NeverEnds a closing name source :=
    neverEnds_of_tagRest? ha hname hsource
  -- A tag that ends has been found to end, since it would never end otherwise.
  have hfound : ∀ {u}, EndsBehind a closing name source u →
      ∃ rest, tagRest? none source = some (u, rest) := by
    intro u hu
    cases hrest : tagRest? none source with
    | none => exact absurd (hnever hrest) hu.not_neverEnds
    | some cut => exact ⟨cut.2, by rw [hu.unique (hends hrest)]⟩
  refine ⟨fun u rest heq => ⟨fun hu => ?_, fun hpaired => ?_⟩, ⟨fun h => ?_, fun h => ?_⟩,
    NeverEnds.extractComponents, fun u rest heq hvalues => ?_, fun u q w heq hu hq => ?_⟩
  · obtain ⟨rest', hrest⟩ := hfound hu
    exact (tagRest?_eq_some_iff.1 hrest).1
  · exact hends (tagRest?_eq_some_iff.2 ⟨hpaired, heq⟩)
  · rw [← tagRest?_eq_none_iff, Option.eq_none_iff_forall_ne_some]
    exact fun cut hcut => (hends hcut).not_neverEnds h
  · exact hnever (tagRest?_eq_none_iff.2 h)
  · exact hends (tagRest?_eq_some_iff.2 ⟨hvalues.paired, heq⟩)
  · subst heq
    refine ⟨fun hw => hnever ?_, ?_⟩
    · rw [hu.tagRest?_append, tagRest?_quote hq, tagRest?_unpaired hw]
      rfl
    · rintro v z rfl hv inside hinside
      obtain ⟨rest, hrest⟩ := hfound hinside
      have hpair : u ++ q :: (v ++ q :: z) = u ++ q :: (v ++ [q]) ++ z := by simp
      rw [hpair, (hu.append (paired_quoted hq hv)).tagRest?_append] at hrest
      obtain ⟨⟨t, rest'⟩, ht, heq⟩ := Option.map_eq_some_iff.1 hrest
      cases heq
      obtain ⟨hpaired, hz⟩ := tagRest?_eq_some_iff.1 ht
      exact ⟨t, rest', by simp, hz, hpaired⟩

/-- A quoted `>` does not end a tag. An apostrophe in a value without quotes hides the component
behind the tag. -/
theorem endsBehind_iff_paired_apostrophe :
    EndsBehind "<p>" false "c-tip".toList " text = \"a > 'b\"></c-tip>".toList
      " text = \"a > 'b\"".toList ∧
    NeverEnds "" false "p".toList " title=it's><c-nav></c-nav>".toList ∧
    extractComponents "<p title=it's><c-nav></c-nav>" = [] := by
  have hvalues : OnlyValues (" text = ".toList ++ '"' :: ("a > 'b".toList ++ ['"'])) :=
    (OnlyValues.nil.plain (w := " text = ".toList) (by simp [IsQuote])).value
      ⟨" text ".toList, [' '], by simp, by simp [isBlank]⟩ (by decide) (by simp)
  have htip := endsBehind_iff_paired (a := "<p>") false "c-tip".toList
    " text = \"a > 'b\"></c-tip>".toList (by decide +kernel)
    ⟨'c', "-tip".toList, by simp, by decide, by simp [isTagNameChar]⟩ (by simp [isTagNameChar])
  have hp := endsBehind_iff_paired (a := "") false "p".toList " title=it's><c-nav></c-nav>".toList
    (by decide +kernel) ⟨'p', [], by simp, by decide, by simp⟩ (by simp [isTagNameChar])
  have hnever := (hp.2.2.2.2 " title=it".toList '\'' "s><c-nav></c-nav>".toList (by simp)
    (by decide +kernel) (by decide)).1 (by simp)
  exact ⟨htip.2.2.2.1 _ "</c-tip>".toList (by simp) hvalues, hnever,
    (hp.2.2.1 hnever).trans (by decide +kernel)⟩

end OpenTag

end SiteCompiler.Component
