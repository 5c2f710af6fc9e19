import SiteCompiler.Proofs.Component.Closed
set_option autoImplicit false

/-! # Components behind raw text

Raw text runs to the first place at which an end tag of its element seems to begin: a `</` and the
name of the element, in any ASCII case, whatever follows. From there on the document is scanned as
markup again. So raw text without such a place holds no components; and where there is one that is
no end tag, as `</scripts` in a script, the components behind it are listed though they stand in the
raw text (`extractComponents_rawText`).
-/

namespace SiteCompiler.Component

/-! ## Where raw text ends -/

theorem beginsEndTag_iff {name cs : List Char} :
    beginsEndTag name cs = true ↔ ∃ written rest, cs = '<' :: '/' :: (written ++ rest) ∧
      Text.lowercase written = name := by
  constructor
  · intro h
    have hlower := lowercase_of_beginsEndTag h
    match cs with
    | [] => simp [Text.lowercase] at hlower
    | [x] => simp [Text.lowercase] at hlower
    | x :: y :: cs =>
        simp only [Text.lowercase, List.take_succ_cons, List.map_cons, List.cons.injEq] at hlower
        obtain ⟨hx, hy, hname⟩ := hlower
        refine ⟨cs.take name.length, cs.drop name.length, ?_, hname⟩
        rw [List.take_append_drop, eq_of_toLower_eq hx (by decide), eq_of_toLower_eq hy (by decide)]
  · rintro ⟨written, rest, rfl, rfl⟩
    simp [beginsEndTag, Text.lowercase]

/-- What seems to be the beginning of an end tag does not reach over a `<`. -/
theorem beginsEndTag_append_lt {name cs : List Char} (hname : '<' ∉ name) (hcs : cs ≠ [])
    (more : List Char) : beginsEndTag name (cs ++ '<' :: more) = beginsEndTag name cs := by
  rw [Bool.eq_iff_iff, beginsEndTag_iff, beginsEndTag_iff]
  constructor
  · rintro ⟨written, rest, heq, rfl⟩
    obtain ⟨c, cs, rfl⟩ := List.exists_cons_of_ne_nil hcs
    obtain ⟨rfl, htail⟩ := List.cons.inj heq
    rw [← List.cons_append] at htail
    rcases List.append_eq_append_iff.1 htail with ⟨gap, hwritten, hgap⟩ | ⟨gap, hcs', -⟩
    · cases gap with
      | nil => exact ⟨written, [], by rw [List.append_nil, hwritten, List.append_nil], rfl⟩
      | cons d gap =>
          -- The `<` would be a character of the name.
          obtain ⟨rfl, -⟩ := List.cons.inj hgap
          have hmem : '<' ∈ '/' :: written := by
            rw [hwritten]
            simp
          have hmem : '<' ∈ written := by simpa using hmem
          exact absurd (List.mem_map_of_mem hmem) hname
    · exact ⟨written, gap, by rw [hcs', List.cons_append], rfl⟩
  · rintro ⟨written, rest, rfl, rfl⟩
    exact ⟨written, rest ++ '<' :: more, by simp, rfl⟩

/-- What is used of the names of the elements with raw text. -/
theorem rawTextNames_spec {name : String} (h : name ∈ Tag.rawTextNames) :
    IsTagName name.toList ∧ Text.lowercase name.toList = name.toList ∧ '<' ∉ name.toList ∧
      (Tag.mk false name.toList []).opensRawText = true := by
  simp only [Tag.rawTextNames, List.mem_cons, List.not_mem_nil, or_false] at h
  rcases h with rfl | rfl | rfl | rfl
  all_goals
    exact ⟨⟨_, _, rfl, by decide, List.all_eq_true.1 (by decide)⟩, by decide, by decide,
      by decide +kernel⟩

/-- An element with raw text, scanned. The raw text is cut at the first place at which an end tag
seems to begin; without such a place it is the whole text between the tags. -/
theorem scan_rawText_element {name : String} (hname : name ∈ Tag.rawTextNames)
    {x body rest : List Char}
    (hcut : (Text.breakBefore? (beginsEndTag name.toList) x).getD (x, []) = (body, rest))
    (b : List Char) :
    scan (("<" ++ name ++ ">").toList ++ (x ++ (("</" ++ name ++ ">").toList ++ b)))
      = .tag ⟨false, name.toList, []⟩ :: .rawText body
        :: scan (rest ++ (("</" ++ name ++ ">").toList ++ b)) := by
  obtain ⟨hisName, hlower, hlt, hraw⟩ := rawTextNames_spec hname
  have hend : ("</" ++ name ++ ">").toList ++ b = '<' :: '/' :: (name.toList ++ '>' :: b) := by
    simp
  have hfound : beginsEndTag name.toList ('<' :: '/' :: (name.toList ++ '>' :: b)) = true :=
    beginsEndTag_iff.2 ⟨name.toList, '>' :: b, rfl, hlower⟩
  have hbreak : Text.breakBefore? (beginsEndTag name.toList)
      (x ++ '<' :: '/' :: (name.toList ++ '>' :: b))
        = some (body, rest ++ '<' :: '/' :: (name.toList ++ '>' :: b)) := by
    rw [Text.breakBefore?_append_of_true (fun _ ha => beginsEndTag_append_lt hlt ha _) rfl hfound]
    cases hx : Text.breakBefore? (beginsEndTag name.toList) x with
    | none =>
        rw [hx] at hcut
        cases hcut
        rfl
    | some cut =>
        rw [hx, Option.getD_some] at hcut
        rw [hcut]
        rfl
  have hbody := Text.append_of_breakBefore? hbreak
  rw [← hbody] at hbreak
  have hscan := (readable_of_isTagName hisName false).scan_rawText hraw (by rwa [hlower])
  rw [hbody] at hscan
  rw [hend]
  simpa [Tag.source] using hscan

/-! ## Components -/

/-- A text begins with what is taken for the beginning of an end tag of the element: `</` and its
name, in any ASCII case. -/
def SeemsEndTag (name text : String) : Prop :=
  ∃ written rest : String, text = "</" ++ written ++ rest ∧
    Text.lowercase written.toList = name.toList

theorem beginsEndTag_eq_true_iff {name text : String} :
    beginsEndTag name.toList text.toList = true ↔ SeemsEndTag name text := by
  rw [beginsEndTag_iff]
  constructor
  · rintro ⟨written, rest, heq, hname⟩
    refine ⟨String.ofList written, String.ofList rest, String.toList_injective ?_, by simpa⟩
    simp [heq]
  · rintro ⟨written, rest, rfl, hname⟩
    exact ⟨written.toList, rest.toList, by simp, hname⟩

/-- No end tag of the element seems to begin anywhere in a text. -/
def FreeOfEndTag (name text : String) : Prop :=
  ∀ body rest, text = body ++ rest → ¬ SeemsEndTag name rest

/-- The first place in a text at which an end tag of the element seems to begin: `body` stands in
front of it, `rest` begins there. -/
structure CutAtEndTag (name text body rest : String) : Prop where
  text_eq : text = body ++ rest
  seems : SeemsEndTag name rest
  first : ∀ body' rest', text = body' ++ rest' → SeemsEndTag name rest' →
    body.length ≤ body'.length

theorem eq_append_iff {text body rest : String} :
    text = body ++ rest ↔ body.toList ++ rest.toList = text.toList := by
  rw [← String.toList_inj, String.toList_append]
  exact eq_comm

theorem freeOfEndTag_iff {name text : String} : FreeOfEndTag name text ↔
    Text.breakBefore? (beginsEndTag name.toList) text.toList = none := by
  rw [Text.breakBefore?_eq_none_iff]
  constructor
  · intro h body rest heq
    rw [Bool.eq_false_iff, ne_eq, ← String.toList_ofList (l := rest), beginsEndTag_eq_true_iff]
    exact h (String.ofList body) _ (eq_append_iff.2 (by simpa using heq))
  · intro h body rest heq hseems
    have hnone := h _ _ (eq_append_iff.1 heq)
    rw [beginsEndTag_eq_true_iff.2 hseems] at hnone
    cases hnone

theorem cutAtEndTag_iff {name text body rest : String} : CutAtEndTag name text body rest ↔
    Text.breakBefore? (beginsEndTag name.toList) text.toList
      = some (body.toList, rest.toList) := by
  rw [Text.breakBefore?_eq_some_iff]
  constructor
  · intro h
    refine ⟨eq_append_iff.1 h.text_eq, beginsEndTag_eq_true_iff.2 h.seems, ?_⟩
    intro body' rest' heq hseems
    rw [← String.toList_ofList (l := rest'), beginsEndTag_eq_true_iff] at hseems
    have hle := h.first (String.ofList body') _ (eq_append_iff.2 (by simpa using heq)) hseems
    rwa [String.length_ofList, ← String.length_toList] at hle
  · rintro ⟨heq, hseems, hfirst⟩
    refine ⟨eq_append_iff.2 heq, beginsEndTag_eq_true_iff.1 hseems, ?_⟩
    intro body' rest' heq' hseems'
    have hle := hfirst _ _ (eq_append_iff.1 heq') (beginsEndTag_eq_true_iff.2 hseems')
    rwa [String.length_toList, String.length_toList] at hle

instance (name text : String) : Decidable (FreeOfEndTag name text) :=
  decidable_of_iff _ freeOfEndTag_iff.symm

instance (name text body rest : String) : Decidable (CutAtEndTag name text body rest) :=
  decidable_of_iff _ cutAtEndTag_iff.symm

/-- **Raw text holds no components, up to the first place at which an end tag seems to begin.** If
there is no such place in the text between the tags, only the components in front of the element and
behind it are listed. If there is one, the components from there on are listed as well, as if what
follows stood behind the element. -/
theorem extractComponents_rawText {a name : String} (ha : Closed a)
    (hname : name ∈ Tag.rawTextNames) (x b : String) :
    (FreeOfEndTag name x →
      extractComponents (a ++ ("<" ++ name ++ ">") ++ x ++ ("</" ++ name ++ ">") ++ b)
        = extractComponents a ++ extractComponents b) ∧
    ∀ body rest, CutAtEndTag name x body rest →
      extractComponents (a ++ ("<" ++ name ++ ">") ++ x ++ ("</" ++ name ++ ">") ++ b)
        = extractComponents a ++ extractComponents (rest ++ ("</" ++ name ++ ">") ++ b) := by
  obtain ⟨hisName, -, -, hraw⟩ := rawTextNames_spec hname
  have hlisting : ∀ body rest : List Char,
      (Text.breakBefore? (beginsEndTag name.toList) x.toList).getD (x.toList, []) = (body, rest) →
      extractComponents (a ++ ("<" ++ name ++ ">") ++ x ++ ("</" ++ name ++ ">") ++ b)
        = extractComponents a
          ++ componentsOf (scan (rest ++ (("</" ++ name ++ ">").toList ++ b.toList))) := by
    intro body rest hcut
    have hparts : ∀ s e : String, (a ++ s ++ x ++ e ++ b).toList
        = a.toList ++ (s.toList ++ (x.toList ++ (e.toList ++ b.toList))) := by
      intro s e
      simp only [String.toList_append, List.append_assoc]
    rw [extractComponents_eq, extractComponents_eq, hparts,
      scan_append_tag ha (scan_rawText_element hname hcut b.toList), componentsOf_append,
      componentsOf_cons_of_none (componentTag?_of_opensRawText hraw),
      componentsOf_cons_of_none rfl]
  constructor
  · intro hfree
    rw [hlisting x.toList [] (by rw [freeOfEndTag_iff.1 hfree]; rfl), List.nil_append,
      scan_tag_append (scan_endTag hisName),
      componentsOf_cons_of_none (componentTag?_of_closing rfl), extractComponents_eq b]
  · intro body rest hcut
    rw [hlisting body.toList rest.toList (by rw [cutAtEndTag_iff.1 hcut]; rfl),
      extractComponents_eq (rest ++ _ ++ b)]
    simp only [String.toList_append, List.append_assoc]

/-- A comparison and a quoted tag end no script; `</scripts` does, though it is no end tag of it. -/
theorem extractComponents_rawText_script :
    extractComponents ("<c-nav>" ++ ("<" ++ "script" ++ ">") ++ "if (a</b/) t = '<c-fake>'"
        ++ ("</" ++ "script" ++ ">") ++ "</c-nav>")
      = extractComponents "<c-nav>" ++ extractComponents "</c-nav>" ∧
    CutAtEndTag "script" "const t = '</scripts><c-fake></c-fake>';" "const t = '"
      "</scripts><c-fake></c-fake>';" ∧
    extractComponents ("" ++ ("<" ++ "script" ++ ">") ++ "const t = '</scripts><c-fake></c-fake>';"
        ++ ("</" ++ "script" ++ ">") ++ "")
      = [⟨"c-fake", "fake", []⟩] := by
  have hcut : CutAtEndTag "script" "const t = '</scripts><c-fake></c-fake>';" "const t = '"
      "</scripts><c-fake></c-fake>';" := by decide +kernel
  have hscript : "script" ∈ Tag.rawTextNames := by decide
  have hlisted := (extractComponents_rawText (a := "") (by decide +kernel) hscript
    "const t = '</scripts><c-fake></c-fake>';" "").2 _ _ hcut
  refine ⟨(extractComponents_rawText (a := "<c-nav>") (by decide +kernel) hscript _ _).1
    (by decide +kernel), hcut, ?_⟩
  rw [hlisted]
  decide +kernel

end SiteCompiler.Component
