import Mathlib.Data.List.Nodup
import SiteCompiler.Proofs.Component.TagEnd
import SiteCompiler.Proofs.Component.Span
set_option autoImplicit false

/-! # Attributes are read as they are written

An attribute is written as its name alone or with a value, which stands in quotes of one kind or
another or bare. Whatever its value, and whatever follows it, the reader of attributes finds it
again (`nextAttribute?_source`), and the search for the end of the tag passes over it
(`paired_source`). A `/` at the end of a bare value is a part of it, and any other `/` at the end of
a tag closes it (`closesItself_sourceOf`). So a component element without children is found whole,
with the map of its attributes (`findComponents_element`).
-/

namespace SiteCompiler.Component

/-! ## Attributes in writing -/

/-- How the value of an attribute is written. -/
inductive Form where
  | alone
  | quoted (quote : Char) (value : List Char)
  | bare (value : List Char)
  deriving DecidableEq, Repr

namespace Form

/-- What is written behind the name. -/
def source : Form → List Char
  | alone => []
  | quoted quote value => '=' :: quote :: (value ++ [quote])
  | bare value => '=' :: value

/-- The value as it is read. -/
def read : Form → Value
  | alone => .absent
  | quoted _ value => .quoted value
  | bare value => .bare value

/-- A quoted value does not hold its quote, and a bare one is made of the characters of a bare
value. -/
def IsValid : Form → Prop
  | alone => True
  | quoted quote value => IsQuote quote ∧ quote ∉ value
  | bare value => value ≠ [] ∧
      ∀ c ∈ value, isBlank c = false ∧ c ∉ ['"', '\'', '=', '<', '>', '`']

end Form

/-- An attribute and how it is written. -/
structure WrittenAttribute where
  name : List Char
  form : Form
  deriving DecidableEq, Repr

namespace WrittenAttribute

/-- The attribute with the space in front of it. -/
def source (a : WrittenAttribute) : List Char := ' ' :: (a.name ++ a.form.source)

/-- The attribute as it is read. -/
def read (a : WrittenAttribute) : Attribute := ⟨a.name, a.form.read⟩

/-- The entry in the map of attributes. -/
def entry (a : WrittenAttribute) : String × String :=
  (String.ofList a.name, String.ofList a.form.read.text)

/-- What can be written as an attribute. -/
structure IsValid (a : WrittenAttribute) : Prop where
  name_ne_nil : a.name ≠ []
  name_chars : ∀ c ∈ a.name,
    c.isUpper = false ∧ isBlank c = false ∧ c ∉ ['"', '\'', '>', '/', '=']
  form : a.form.IsValid

theorem IsValid.isAttributeNameChar {a : WrittenAttribute} (h : a.IsValid) :
    ∀ c ∈ a.name, isAttributeNameChar c = true := by
  intro c hc
  obtain ⟨-, hblank, hmem⟩ := h.name_chars c hc
  simp only [List.mem_cons, List.not_mem_nil, or_false, not_or] at hmem
  simp [Component.isAttributeNameChar, hblank, hmem]

theorem IsValid.plain_name {a : WrittenAttribute} (h : a.IsValid) :
    ∀ c ∈ a.name, ¬ IsQuote c ∧ c ≠ '>' := by
  intro c hc
  obtain ⟨-, -, hmem⟩ := h.name_chars c hc
  simp only [List.mem_cons, List.not_mem_nil, or_false, not_or] at hmem
  simp [IsQuote, hmem]

theorem IsValid.lowercase_name {a : WrittenAttribute} (h : a.IsValid) :
    Text.lowercase a.name = a.name := by
  have hsame : ∀ c ∈ a.name, c.toLower = id c := fun c hc =>
    toLower_of_not_isUpper (by simp [(h.name_chars c hc).1])
  rw [Text.lowercase, List.map_congr_left hsame, List.map_id]

end WrittenAttribute

theorem Form.IsValid.isBareValueChar {value : List Char} (h : (Form.bare value).IsValid) :
    ∀ c ∈ value, isBareValueChar c = true := by
  intro c hc
  obtain ⟨hblank, hmem⟩ := h.2 c hc
  simp only [List.mem_cons, List.not_mem_nil, or_false, not_or] at hmem
  simp [Component.isBareValueChar, hblank, hmem]

theorem Form.IsValid.plain {value : List Char} (h : (Form.bare value).IsValid) :
    ∀ c ∈ value, ¬ IsQuote c ∧ c ≠ '>' := by
  intro c hc
  obtain ⟨-, hmem⟩ := h.2 c hc
  simp only [List.mem_cons, List.not_mem_nil, or_false, not_or] at hmem
  simp [IsQuote, hmem]

/-- The attributes in writing, one behind the other. -/
def sourceOf (attrs : List WrittenAttribute) : List Char := attrs.flatMap WrittenAttribute.source

/-! ## Reading one attribute -/

/-- What can follow an attribute: nothing, or a space and neither `=` nor another blank. -/
def Separates (rest : List Char) : Prop :=
  rest = [] ∨ ∃ c more, rest = ' ' :: c :: more ∧ isBlank c = false ∧ c ≠ '='

theorem Separates.head {rest : List Char} (h : Separates rest) {c : Char}
    (hc : rest.head? = some c) : c = ' ' := by
  rcases h with rfl | ⟨d, more, rfl, -, -⟩
  · cases hc
  · cases hc
    rfl

/-- Behind a name alone no value is found. -/
theorem Separates.assignedValue? {rest : List Char} (h : Separates rest) :
    assignedValue? rest = none := by
  rcases h with rfl | ⟨c, more, rfl, hblank, hc⟩
  · rfl
  · have hdrop : (' ' :: c :: more).dropWhile isBlank = c :: more := by
      simp [hblank, show isBlank ' ' = true by decide]
    rw [Component.assignedValue?, hdrop]
    split
    · next heq => exact absurd (List.cons.inj heq).1 hc
    · rfl

theorem quotedText?_append {q : Char} {v : List Char} (hv : q ∉ v) (rest : List Char) :
    quotedText? q (v ++ q :: rest) = some (v, rest) := by
  have hrun : ∀ c ∈ v, decide (c ≠ q) = true := by
    intro c hc
    simpa using fun heq : c = q => hv (heq ▸ hc)
  have hend : ∀ c, (q :: rest).head? = some c → decide (c ≠ q) = false := by simp
  rw [quotedText?, Text.dropWhile_append_run hrun hend, Text.takeWhile_append_run hrun hend]

theorem valueText?_quoted {q : Char} {v : List Char} (hq : IsQuote q) (hv : q ∉ v)
    (rest : List Char) : valueText? (q :: (v ++ q :: rest)) = some (.quoted v, rest) := by
  rcases hq with rfl | rfl
  · have hdrop : ('"' :: (v ++ '"' :: rest)).dropWhile isBlank = '"' :: (v ++ '"' :: rest) := by
      rw [List.dropWhile_cons_of_neg (by decide)]
    simp only [valueText?, hdrop, quotedText?_append hv, Option.map_some]
  · have hdrop : ('\'' :: (v ++ '\'' :: rest)).dropWhile isBlank
        = '\'' :: (v ++ '\'' :: rest) := by
      rw [List.dropWhile_cons_of_neg (by decide)]
    simp only [valueText?, hdrop, quotedText?_append hv, Option.map_some]

theorem valueText?_bare {v rest : List Char} (hv : (Form.bare v).IsValid)
    (hrest : Separates rest) : valueText? (v ++ rest) = some (.bare v, rest) := by
  have hend : ∀ c, rest.head? = some c → isBareValueChar c = false := by
    intro c hc
    rw [hrest.head hc]
    decide
  have htake := Text.takeWhile_append_run hv.isBareValueChar hend
  have hdropValue := Text.dropWhile_append_run hv.isBareValueChar hend
  obtain ⟨c, cs, rfl⟩ := List.exists_cons_of_ne_nil hv.1
  obtain ⟨hblank, hmem⟩ := hv.2 c List.mem_cons_self
  have hdrop : (c :: cs ++ rest).dropWhile isBlank = c :: cs ++ rest := by
    rw [List.cons_append, List.dropWhile_cons_of_neg (by simp [hblank])]
  rw [valueText?, hdrop]
  split
  · next heq => simp [(List.cons.inj heq).1] at hmem
  · next heq => simp [(List.cons.inj heq).1] at hmem
  · rw [htake, hdropValue]

/-- **An attribute is read as it is written**, whatever follows it. -/
theorem nextAttribute?_source {a : WrittenAttribute} (ha : a.IsValid) {rest : List Char}
    (hrest : Separates rest) : nextAttribute? (a.source ++ rest) = some (a.read, rest) := by
  have hend : ∀ c, (a.form.source ++ rest).head? = some c → isAttributeNameChar c = false := by
    intro c hc
    cases hform : a.form with
    | alone =>
        rw [hform, Form.source, List.nil_append] at hc
        rw [hrest.head hc]
        decide
    | quoted q v =>
        rw [hform] at hc
        cases hc
        decide
    | bare v =>
        rw [hform] at hc
        cases hc
        decide
  have htake := Text.takeWhile_append_run ha.isAttributeNameChar hend
  have hdrop := Text.dropWhile_append_run ha.isAttributeNameChar hend
  obtain ⟨c, cs, hname⟩ := List.exists_cons_of_ne_nil ha.name_ne_nil
  have hfirst : isAttributeNameChar c = true :=
    ha.isAttributeNameChar c (by rw [hname]; exact List.mem_cons_self)
  have hhere : (a.source ++ rest).dropWhile (fun c => !isAttributeNameChar c)
      = a.name ++ (a.form.source ++ rest) := by
    rw [WrittenAttribute.source, hname, List.cons_append, List.cons_append, List.cons_append,
      List.dropWhile_cons_of_pos (by decide), List.dropWhile_cons_of_neg (by simp [hfirst]),
      List.cons_append, List.append_assoc]
  -- A name alone needs what follows it to show that no value is meant.
  have hassigned : assignedValue? (a.form.source ++ rest)
      = match a.form.read with
        | .absent => none
        | value => some (value, rest) := by
    have hvalid := ha.form
    cases hform : a.form with
    | alone => exact hrest.assignedValue?
    | quoted q v =>
        rw [hform] at hvalid
        have hparts : (Form.quoted q v).source ++ rest = '=' :: q :: (v ++ q :: rest) := by
          simp [Form.source]
        rw [hparts, assignedValue?, List.dropWhile_cons_of_neg (by decide)]
        exact valueText?_quoted hvalid.1 hvalid.2 rest
    | bare v =>
        rw [hform] at hvalid
        rw [Form.source, List.cons_append, assignedValue?,
          List.dropWhile_cons_of_neg (by decide)]
        exact valueText?_bare hvalid hrest
  rw [nextAttribute?]
  simp only [hhere, htake, hdrop, hassigned, WrittenAttribute.read]
  rw [hname]
  cases hform : a.form with
  | alone => simp [Form.read, Form.source]
  | quoted q v => rfl
  | bare v => rfl

/-! ## Reading all attributes -/

section Equations

variable {cs rest : List Char} {a : Attribute}

theorem attributes_of_none (h : nextAttribute? cs = none) : attributes cs = [] := by
  rw [attributes]
  split
  · rfl
  · next heq => cases h.symm.trans heq

theorem attributes_of_some (h : nextAttribute? cs = some (a, rest)) :
    attributes cs = a :: attributes rest := by
  rw [attributes]
  split
  · next heq => cases h.symm.trans heq
  · next heq =>
      cases h.symm.trans heq
      rfl

theorem endsInBareValue_of_none (h : nextAttribute? cs = none) : endsInBareValue cs = false := by
  rw [endsInBareValue]
  split
  · rfl
  · next heq => cases h.symm.trans heq

theorem endsInBareValue_of_some (h : nextAttribute? cs = some (a, rest)) :
    endsInBareValue cs = (a.value.isBare && rest.isEmpty || endsInBareValue rest) := by
  rw [endsInBareValue]
  split
  · next heq => cases h.symm.trans heq
  · next heq =>
      cases h.symm.trans heq
      rfl

end Equations

/-- What stands between the attributes and the `>`: nothing, or a space and a `/`. -/
def tail (selfClosing : Bool) : List Char := if selfClosing then [' ', '/'] else []

section Attributes

variable {attrs : List WrittenAttribute}

theorem sourceOf_cons (a : WrittenAttribute) (attrs : List WrittenAttribute) :
    sourceOf (a :: attrs) = a.source ++ sourceOf attrs := List.flatMap_cons

theorem separates_sourceOf (hattrs : ∀ a ∈ attrs, a.IsValid) (selfClosing : Bool) :
    Separates (sourceOf attrs ++ tail selfClosing) := by
  cases attrs with
  | nil =>
      cases selfClosing with
      | false => exact Or.inl rfl
      | true => exact Or.inr ⟨'/', [], rfl, by decide, by decide⟩
  | cons a attrs =>
      have ha := hattrs a List.mem_cons_self
      obtain ⟨c, cs, hname⟩ := List.exists_cons_of_ne_nil ha.name_ne_nil
      obtain ⟨-, hblank, hmem⟩ := ha.name_chars c (by rw [hname]; exact List.mem_cons_self)
      refine Or.inr ⟨c, cs ++ a.form.source ++ sourceOf attrs ++ tail selfClosing, ?_, hblank, ?_⟩
      · simp [sourceOf_cons, WrittenAttribute.source, hname]
      · rintro rfl
        simp at hmem

theorem nextAttribute?_tail (selfClosing : Bool) : nextAttribute? (tail selfClosing) = none := by
  cases selfClosing with
  | false => rfl
  | true => decide

theorem nextAttribute?_sourceOf_cons {a : WrittenAttribute}
    (hattrs : ∀ b ∈ a :: attrs, b.IsValid) (selfClosing : Bool) :
    nextAttribute? (sourceOf (a :: attrs) ++ tail selfClosing)
      = some (a.read, sourceOf attrs ++ tail selfClosing) := by
  obtain ⟨ha, hattrs⟩ := List.forall_mem_cons.1 hattrs
  rw [sourceOf_cons, List.append_assoc]
  exact nextAttribute?_source ha (separates_sourceOf hattrs selfClosing)

theorem attributes_sourceOf (hattrs : ∀ a ∈ attrs, a.IsValid) (selfClosing : Bool) :
    attributes (sourceOf attrs ++ tail selfClosing) = attrs.map WrittenAttribute.read := by
  induction attrs with
  | nil => exact attributes_of_none (nextAttribute?_tail selfClosing)
  | cons a attrs ih =>
      rw [attributes_of_some (nextAttribute?_sourceOf_cons hattrs selfClosing),
        ih (List.forall_mem_cons.1 hattrs).2, List.map_cons]

/-- Only without a `/` behind it, a bare value stands at the end. -/
theorem endsInBareValue_sourceOf (hattrs : ∀ a ∈ attrs, a.IsValid) (selfClosing : Bool) :
    endsInBareValue (sourceOf attrs ++ tail selfClosing)
      = (!selfClosing && attrs.getLast?.any fun a => a.form.read.isBare) := by
  induction attrs with
  | nil =>
      rw [List.getLast?_nil, Option.any_none, Bool.and_false]
      exact endsInBareValue_of_none (nextAttribute?_tail selfClosing)
  | cons a attrs ih =>
      rw [endsInBareValue_of_some (nextAttribute?_sourceOf_cons hattrs selfClosing),
        ih (List.forall_mem_cons.1 hattrs).2]
      -- The last attribute is the only one that nothing follows, unless the `/` does.
      cases attrs with
      | nil => cases selfClosing <;> simp [sourceOf, tail, WrittenAttribute.read]
      | cons b attrs => simp [sourceOf_cons, WrittenAttribute.source]

/-! ## The end of the tag -/

theorem trimEnd_eq_self {cs : List Char} (h : ∀ c, cs.getLast? = some c → isBlank c = false) :
    Text.trimEnd cs = cs := by
  have hhead : ∀ c, cs.reverse.head? = some c → isBlank c = false := by
    intro c hc
    exact h c (by rwa [List.head?_reverse] at hc)
  have hdrop : ([] ++ cs.reverse).dropWhile isBlank = cs.reverse :=
    Text.dropWhile_append_run (by simp) hhead
  rw [Text.trimEnd, ← List.nil_append cs.reverse, hdrop, List.reverse_reverse]

/-- An attribute ends in no blank, and in a `/` only if that belongs to a bare value. -/
theorem exists_source_eq_concat {a : WrittenAttribute} (ha : a.IsValid) :
    ∃ front c, a.source = front ++ [c] ∧ isBlank c = false ∧
      (c = '/' → a.form.read.isBare = true) := by
  have hvalid := ha.form
  rw [WrittenAttribute.source]
  cases hform : a.form with
  | alone =>
      obtain ⟨front, c, hname⟩ := (List.eq_nil_or_concat' a.name).resolve_left ha.name_ne_nil
      obtain ⟨-, hblank, hmem⟩ := ha.name_chars c (by simp [hname])
      refine ⟨' ' :: front, c, by simp [hname, Form.source], hblank, ?_⟩
      rintro rfl
      simp at hmem
  | quoted q v =>
      rw [hform] at hvalid
      refine ⟨' ' :: (a.name ++ '=' :: q :: v), q, by simp [Form.source], ?_, ?_⟩
      · rcases hvalid.1 with rfl | rfl <;> decide
      · rintro rfl
        exact absurd hvalid.1 (by decide)
  | bare v =>
      rw [hform] at hvalid
      obtain ⟨front, c, hv⟩ := (List.eq_nil_or_concat' v).resolve_left hvalid.1
      exact ⟨' ' :: (a.name ++ '=' :: front), c, by simp [hv, Form.source],
        (hvalid.2 c (by simp [hv])).1, fun _ => rfl⟩

/-- **A tag closes itself by a `/` that stands alone**, whatever its attributes end in. -/
theorem closesItself_sourceOf (hattrs : ∀ a ∈ attrs, a.IsValid) (selfClosing : Bool) :
    closesItself (sourceOf attrs ++ tail selfClosing) = selfClosing := by
  have hbare := endsInBareValue_sourceOf hattrs selfClosing
  -- With a `/` of its own the tag ends in it. Without, its last character is that of the last
  -- attribute.
  cases selfClosing with
  | true =>
      have hlast : (sourceOf attrs ++ tail true).getLast? = some '/' := by simp [tail]
      have htrim : Text.trimEnd (sourceOf attrs ++ tail true) = sourceOf attrs ++ tail true := by
        refine trimEnd_eq_self fun c hc => ?_
        rw [hlast] at hc
        cases hc
        decide
      simp [closesItself, htrim, hlast, hbare]
  | false =>
      rw [tail, if_neg (by decide), List.append_nil] at hbare ⊢
      rcases List.eq_nil_or_concat' attrs with rfl | ⟨front, a, rfl⟩
      · rfl
      · obtain ⟨before, c, hsource, hblank, hslash⟩ :=
          exists_source_eq_concat (hattrs a (by simp))
        have hlast : (sourceOf (front ++ [a])).getLast? = some c := by
          rw [sourceOf, List.flatMap_append, List.flatMap_singleton, hsource, ← List.append_assoc,
            List.getLast?_concat]
        have htrim : Text.trimEnd (sourceOf (front ++ [a])) = sourceOf (front ++ [a]) := by
          refine trimEnd_eq_self fun d hd => ?_
          rw [hlast] at hd
          cases hd
          exact hblank
        rw [closesItself, htrim, hlast, hbare]
        by_cases hc : c = '/'
        · simp [hslash hc]
        · simp [hc]

theorem paired_source {a : WrittenAttribute} (ha : a.IsValid) : Paired a.source := by
  have hvalid := ha.form
  have hname : Paired (' ' :: a.name) :=
    .char (by decide) (by decide) (paired_of_plain ha.plain_name)
  rw [WrittenAttribute.source, ← List.cons_append]
  refine hname.append ?_
  cases hform : a.form with
  | alone => exact .nil
  | quoted q v =>
      rw [hform] at hvalid
      exact .char (by decide) (by decide) (paired_quoted hvalid.1 hvalid.2)
  | bare v =>
      rw [hform] at hvalid
      exact .char (by decide) (by decide) (paired_of_plain hvalid.plain)

theorem paired_sourceOf (hattrs : ∀ a ∈ attrs, a.IsValid) (selfClosing : Bool) :
    Paired (sourceOf attrs ++ tail selfClosing) := by
  induction attrs with
  | nil =>
      refine paired_of_plain ?_
      cases selfClosing <;> simp [sourceOf, tail, IsQuote]
  | cons a attrs ih =>
      obtain ⟨ha, hattrs⟩ := List.forall_mem_cons.1 hattrs
      rw [sourceOf_cons, List.append_assoc]
      exact (paired_source ha).append (ih hattrs)

/-- A start tag with written attributes is read off its source. -/
theorem readable_sourceOf {name : List Char} (hname : IsTagName name)
    (hattrs : ∀ a ∈ attrs, a.IsValid) (selfClosing : Bool) :
    (Tag.mk false name (sourceOf attrs ++ tail selfClosing)).Readable where
  isName := hname
  boundary := by
    intro c hc
    cases hrest : sourceOf attrs ++ tail selfClosing with
    | nil =>
        rw [hrest] at hc
        cases hc
        decide
    | cons d rest =>
        have hd : d = ' ' := (separates_sourceOf hattrs selfClosing).head (by rw [hrest]; rfl)
        rw [hrest] at hc
        cases hc
        rw [hd]
        decide
  ends := tagRest?_eq_some_iff.2 ⟨paired_sourceOf hattrs selfClosing, rfl⟩

end Attributes

/-! ## The map of attributes -/

/-- The entry of an attribute in the map of attributes. -/
def Attribute.entry (a : Attribute) : String × String :=
  (String.ofList (Text.lowercase a.name), String.ofList a.value.text)

/-- Enters an attribute in the map, unless its name is there. -/
def Attribute.enter (found : List (String × String)) (a : Attribute) : List (String × String) :=
  if (found.lookup a.entry.1).isSome then found else found ++ [a.entry]

theorem attributeMap_eq_foldl (cs : List Char) :
    attributeMap cs = (attributes cs).foldl Attribute.enter [] := rfl

/-- Where names do not repeat, every attribute is entered, in order. -/
theorem foldl_enter {as : List Attribute} {found : List (String × String)}
    (h : ((found ++ as.map Attribute.entry).map Prod.fst).Nodup) :
    as.foldl Attribute.enter found = found ++ as.map Attribute.entry := by
  induction as generalizing found with
  | nil => rw [List.foldl_nil, List.map_nil, List.append_nil]
  | cons a as ih =>
      have hnew : found.lookup a.entry.1 = none := by
        rw [List.lookup_eq_none_iff]
        rintro ⟨name, value⟩ hmem
        simp only [List.map_cons, List.map_append, List.nodup_append] at h
        have hne := h.2.2 name (List.mem_map_of_mem hmem) a.entry.1 (by simp)
        simpa using hne.symm
      have henter : Attribute.enter found a = found ++ [a.entry] := by
        rw [Attribute.enter, hnew]
        rfl
      rw [List.map_cons, List.append_cons] at h ⊢
      rw [List.foldl_cons, henter, ih h]

theorem attributeMap_sourceOf {attrs : List WrittenAttribute} (hattrs : ∀ a ∈ attrs, a.IsValid)
    (hnames : (attrs.map WrittenAttribute.name).Nodup) (selfClosing : Bool) :
    attributeMap (sourceOf attrs ++ tail selfClosing) = attrs.map WrittenAttribute.entry := by
  have hentries : (attrs.map WrittenAttribute.read).map Attribute.entry
      = attrs.map WrittenAttribute.entry := by
    rw [List.map_map]
    refine List.map_congr_left fun a ha => ?_
    simp [Attribute.entry, WrittenAttribute.entry, WrittenAttribute.read,
      (hattrs a ha).lowercase_name]
  have hkeys : ((attrs.map WrittenAttribute.entry).map Prod.fst).Nodup := by
    have hinj := hnames.map fun _ _ h => String.ofList_inj.1 h
    rwa [List.map_map] at hinj ⊢
  rw [attributeMap_eq_foldl, attributes_sourceOf hattrs, foldl_enter, hentries, List.nil_append]
  rwa [hentries, List.nil_append]

/-! ## An element without children -/

section Element

/-- The characters of the name of a component: those of the name of a tag, in lower case. -/
def IsNameChar (c : Char) : Prop :=
  c.isLower = true ∨ c.isDigit = true ∨ c ∈ [':', '.', '_', '-']

theorem IsNameChar.toLower {c : Char} (h : IsNameChar c) : c.toLower = c := by
  refine toLower_of_not_isUpper fun hupper => ?_
  have hcapital : 65 ≤ c.toNat ∧ c.toNat ≤ 90 := of_decide_eq_true hupper
  rcases h with h | h | h
  · have hletter : 97 ≤ c.toNat := of_decide_eq_true (Bool.and_eq_true_iff.1 h).1
    omega
  · have hdigit : c.toNat ≤ 57 := of_decide_eq_true (Bool.and_eq_true_iff.1 h).2
    omega
  · simp only [List.mem_cons, List.not_mem_nil, or_false] at h
    rcases h with rfl | rfl | rfl | rfl <;> cases hupper

theorem IsNameChar.isTagNameChar {c : Char} (h : IsNameChar c) : isTagNameChar c = true := by
  rcases h with h | h | h
  · simp [Component.isTagNameChar, Char.isAlphanum, isAlpha_of_isLower h]
  · simp [Component.isTagNameChar, Char.isAlphanum, h]
  · simp only [List.mem_cons, List.not_mem_nil, or_false] at h
    rcases h with rfl | rfl | rfl | rfl <;> decide

/-- The start tag of a component element, which may close the element in place. -/
def startTag (name : String) (attrs : List WrittenAttribute) (selfClosing : Bool) : Tag where
  closing := false
  written := ("c-" ++ name).toList
  rest := sourceOf attrs ++ tail selfClosing

/-- A component element without children: its start tag and its end tag, or a start tag that closes
it in place. -/
def element (name : String) (attrs : List WrittenAttribute) (selfClosing : Bool) : String :=
  "<c-" ++ name ++ String.ofList (sourceOf attrs ++ tail selfClosing) ++ ">"
    ++ if selfClosing then "" else "</c-" ++ name ++ ">"

variable {name : String} {attrs : List WrittenAttribute}

theorem isTagName_of_isNameChar (hchars : ∀ c ∈ name.toList, IsNameChar c) :
    IsTagName ("c-" ++ name).toList := by
  refine ⟨'c', '-' :: name.toList, by simp, by decide, List.forall_mem_cons.2 ⟨by decide, ?_⟩⟩
  exact fun c hc => (hchars c hc).isTagNameChar

theorem readable_startTag (hchars : ∀ c ∈ name.toList, IsNameChar c)
    (hattrs : ∀ a ∈ attrs, a.IsValid) (selfClosing : Bool) :
    (startTag name attrs selfClosing).Readable :=
  readable_sourceOf (isTagName_of_isNameChar hchars) hattrs selfClosing

theorem name_startTag (hchars : ∀ c ∈ name.toList, IsNameChar c) (closing : Bool)
    (rest : List Char) : (Tag.mk closing ("c-" ++ name).toList rest).name = "c-" ++ name := by
  have hlower : Text.lowercase ("c-" ++ name).toList = ("c-" ++ name).toList := by
    have hsame : ∀ c ∈ ("c-" ++ name).toList, c.toLower = id c := by
      simp only [String.toList_append, List.mem_append]
      rintro c (hc | hc)
      · revert c
        simp
      · exact (hchars c hc).toLower
    rw [Text.lowercase, List.map_congr_left hsame, List.map_id]
  rw [Tag.name, hlower, String.ofList_toList]

theorem isComponentTag_append (hname : name ≠ "") : isComponentTag ("c-" ++ name) = true := by
  have hpos : 0 < name.toList.length := by
    rw [List.length_pos_iff]
    simpa using hname
  simp [isComponentTag, componentMark, hpos]

theorem component_startTag (hchars : ∀ c ∈ name.toList, IsNameChar c)
    (hattrs : ∀ a ∈ attrs, a.IsValid) (hnames : (attrs.map WrittenAttribute.name).Nodup)
    (selfClosing : Bool) : (startTag name attrs selfClosing).component
      = ⟨"c-" ++ name, name, attrs.map WrittenAttribute.entry⟩ := by
  have htag := name_startTag hchars false (sourceOf attrs ++ tail selfClosing)
  have hmap := attributeMap_sourceOf hattrs hnames selfClosing
  rw [startTag, Tag.component, htag, hmap]
  simp [componentMark]

/-- What closes the element behind its start tag. -/
def closers (name : String) (selfClosing : Bool) : List Piece :=
  if selfClosing then [] else [.tag ⟨true, ("c-" ++ name).toList, []⟩]

theorem scan_element (hname : name ≠ "") (hchars : ∀ c ∈ name.toList, IsNameChar c)
    (hattrs : ∀ a ∈ attrs, a.IsValid) (selfClosing : Bool) :
    scan (element name attrs selfClosing).toList
      = .tag (startTag name attrs selfClosing) :: closers name selfClosing := by
  have hread := readable_startTag hchars hattrs selfClosing
  have hraw : (startTag name attrs selfClosing).opensRawText = false := by
    refine opensRawText_of_isComponentTag ?_
    rw [startTag, name_startTag hchars, isComponentTag_append hname]
  have hsource : (element name attrs selfClosing).toList
      = (startTag name attrs selfClosing).source
        ++ (if selfClosing then "" else "</" ++ ("c-" ++ name) ++ ">").toList := by
    cases selfClosing <;> simp [element, startTag, Tag.source]
  rw [hsource, hread.scan_tag hraw]
  cases selfClosing with
  | true =>
      rw [if_pos rfl, String.toList_empty, scan_plain List.not_mem_nil]
      rfl
  | false =>
      rw [if_neg (by decide), scan_endTag (isTagName_of_isNameChar hchars)]
      rfl

theorem splitAtEnd?_singleton {name : String} {piece : Piece}
    (h : piece.nesting name = some false) : splitAtEnd? name 0 [piece] = some ([piece], []) := by
  simp [splitAtEnd?, h]

theorem elementPieces_startTag (hchars : ∀ c ∈ name.toList, IsNameChar c)
    (hattrs : ∀ a ∈ attrs, a.IsValid) (selfClosing : Bool) :
    elementPieces (startTag name attrs selfClosing) (closers name selfClosing)
      = (closers name selfClosing, []) := by
  have hself : (startTag name attrs selfClosing).selfClosing = selfClosing :=
    closesItself_sourceOf hattrs selfClosing
  cases selfClosing with
  | true => rw [elementPieces, if_pos hself]; rfl
  | false =>
      have hnesting : (Piece.tag ⟨true, ("c-" ++ name).toList, []⟩).nesting
          (startTag name attrs false).name = some false := by
        rw [startTag, name_startTag hchars, Piece.nesting, name_startTag hchars]
        simp
      rw [elementPieces, if_neg (by simp [hself]), closers, if_neg (by decide),
        splitAtEnd?_singleton hnesting]
      rfl

/-- **Attributes are read as they are written.** In a component element without children every
attribute is found with its value, and the element is found whole, whether it is closed by an end
tag or by a `/`. -/
theorem findComponents_element (hname : name ≠ "") (hchars : ∀ c ∈ name.toList, IsNameChar c)
    (hattrs : ∀ a ∈ attrs, a.IsValid) (hnames : (attrs.map WrittenAttribute.name).Nodup)
    (selfClosing : Bool) :
    findComponents (element name attrs selfClosing)
      = [⟨⟨"c-" ++ name, name, attrs.map WrittenAttribute.entry⟩, 0,
          (element name attrs selfClosing).utf8ByteSize⟩] := by
  have hscan := scan_element hname hchars hattrs selfClosing
  have hopens : (Piece.tag (startTag name attrs selfClosing)).componentTag?
      = some (startTag name attrs selfClosing) := by
    have htag := name_startTag hchars false (sourceOf attrs ++ tail selfClosing)
    rw [Piece.componentTag?, startTag, htag, isComponentTag_append hname]
    rfl
  have hlength : Text.utf8Length (sources (.tag (startTag name attrs selfClosing)
      :: closers name selfClosing)) = (element name attrs selfClosing).utf8ByteSize := by
    rw [← hscan, sources_scan, Text.utf8Length_toList]
  calc findComponents (element name attrs selfClosing)
      = elementsAfter [] (.tag (startTag name attrs selfClosing) :: closers name selfClosing) := by
        rw [findComponents_eq, hscan]
    _ = [⟨(startTag name attrs selfClosing).component, 0,
          Text.utf8Length (sources (.tag (startTag name attrs selfClosing)
            :: closers name selfClosing))⟩] := by
        rw [elementsAfter_cons_of_some hopens, elementPieces_startTag hchars hattrs,
          elementsAfter_nil]
        rfl
    _ = _ := by rw [component_startTag hchars hattrs hnames, hlength]

/-- A `>`, the other quote and a `/` in quotes, a name alone, and a bare value that ends in `/`. -/
def galleryAttributes : List WrittenAttribute :=
  [⟨"title".toList, .quoted '"' "a > 'b'/".toList⟩, ⟨"open".toList, .alone⟩,
    ⟨"href".toList, .bare "/a/".toList⟩]

theorem findComponents_element_gallery :
    element "ui.nav" galleryAttributes false
      = "<c-ui.nav title=\"a > 'b'/\" open href=/a/></c-ui.nav>" ∧
    findComponents (element "ui.nav" galleryAttributes false) =
      [⟨⟨"c-ui.nav", "ui.nav", [("title", "a > 'b'/"), ("open", ""), ("href", "/a/")]⟩, 0, 52⟩] ∧
    element "ui.nav" galleryAttributes true = "<c-ui.nav title=\"a > 'b'/\" open href=/a/ />" ∧
    findComponents (element "ui.nav" galleryAttributes true) =
      [⟨⟨"c-ui.nav", "ui.nav", [("title", "a > 'b'/"), ("open", ""), ("href", "/a/")]⟩, 0, 43⟩] := by
  have hattrs : ∀ a ∈ galleryAttributes, a.IsValid := by
    simp only [galleryAttributes, List.forall_mem_cons]
    exact ⟨⟨by simp, by simp [isBlank], Or.inl rfl, by simp⟩, ⟨by simp, by simp [isBlank], trivial⟩,
      ⟨by simp, by simp [isBlank], by simp, by simp [isBlank]⟩, by simp⟩
  have hread := findComponents_element (show "ui.nav" ≠ "" by simp) (by simp [IsNameChar]) hattrs
    (by simp [galleryAttributes])
  refine ⟨by decide +kernel, (hread false).trans ?_, by decide +kernel, (hread true).trans ?_⟩
  · decide +kernel
  · decide +kernel

end Element

end SiteCompiler.Component
