import SiteCompiler.Page.Placeholder
import SiteCompiler.Proofs.Component.RawText
import SiteCompiler.Proofs.Component.Written
set_option autoImplicit false

/-! # The tags for a page, scanned

The address of the stylesheet is escaped where it is written, so it stays within its quotes and is
read back whole (`decode_escape`): the two links are scanned as they are meant, for every address
(`scan_nonCriticalTag`). The critical CSS is written as it is. It stands in its `style` element
untouched if no end tag of that element seems to begin in it, and only then (`intact_iff`).
-/

namespace SiteCompiler.Page

open Component

/-! ## Escaped text -/

/-- A text with the entities of the escaped characters decoded. -/
def decode : List Char → List Char
  | '&' :: 'a' :: 'm' :: 'p' :: ';' :: cs => '&' :: decode cs
  | '&' :: 'l' :: 't' :: ';' :: cs => '<' :: decode cs
  | '&' :: 'g' :: 't' :: ';' :: cs => '>' :: decode cs
  | '&' :: 'q' :: 'u' :: 'o' :: 't' :: ';' :: cs => '"' :: decode cs
  | c :: cs => c :: decode cs
  | [] => []

theorem decode_cons_of_ne {c : Char} (h : c ≠ '&') (cs : List Char) :
    decode (c :: cs) = c :: decode cs := by
  rw [decode] <;> rintro rest rfl <;> exact absurd rfl h

theorem decode_escapeChar (c : Char) (more : List Char) :
    decode (escapeChar c ++ more) = c :: decode more := by
  unfold escapeChar
  split
  · rfl
  · rfl
  · rfl
  · rfl
  · next hamp _ _ _ => exact decode_cons_of_ne hamp more

/-- What is escaped is read back. -/
theorem decode_escape (text : String) : decode (escape text).toList = text.toList := by
  rw [escape, String.toList_ofList]
  induction text.toList with
  | nil => rfl
  | cons c cs ih => rw [List.flatMap_cons, decode_escapeChar, ih]

theorem quote_not_mem_escape (text : String) : '"' ∉ (escape text).toList := by
  rw [escape, String.toList_ofList, List.mem_flatMap]
  rintro ⟨c, -, hmem⟩
  unfold escapeChar at hmem
  split at hmem
  · simp at hmem
  · simp at hmem
  · simp at hmem
  · simp at hmem
  · next hquote => exact hquote (List.mem_singleton.1 hmem).symm

/-! ## The links -/

/-- An attribute with its value in double quotes. -/
def quotedAttribute (name value : String) : WrittenAttribute :=
  ⟨name.toList, .quoted '"' value.toList⟩

/-- The attributes of the link that loads the stylesheet ahead. -/
def preloadAttributes (href : String) : List WrittenAttribute :=
  [quotedAttribute "rel" "preload", quotedAttribute "href" (escape href),
    quotedAttribute "as" "style",
    quotedAttribute "onload" "this.onload=null;this.rel='stylesheet'"]

/-- The attributes of the link for readers without scripts. -/
def plainAttributes (href : String) : List WrittenAttribute :=
  [quotedAttribute "rel" "stylesheet", quotedAttribute "href" (escape href)]

theorem isValid_quotedAttribute {name value : String}
    (hname : name ∈ ["rel", "href", "as", "onload"]) (hvalue : '"' ∉ value.toList) :
    (quotedAttribute name value).IsValid := by
  have hchars : name.toList ≠ [] ∧ ∀ c ∈ name.toList,
      c.isUpper = false ∧ isBlank c = false ∧ c ∉ ['"', '\'', '>', '/', '='] := by
    simp only [List.mem_cons, List.not_mem_nil, or_false] at hname
    rcases hname with rfl | rfl | rfl | rfl <;> simp [isBlank]
  exact ⟨hchars.1, hchars.2, Or.inl rfl, hvalue⟩

theorem isValid_preloadAttributes (href : String) :
    ∀ a ∈ preloadAttributes href, a.IsValid := by
  simp only [preloadAttributes, List.forall_mem_cons]
  refine ⟨isValid_quotedAttribute (by simp) (by simp),
    isValid_quotedAttribute (by simp) (quote_not_mem_escape href),
    isValid_quotedAttribute (by simp) (by simp), isValid_quotedAttribute (by simp) (by simp),
    by simp⟩

theorem isValid_plainAttributes (href : String) : ∀ a ∈ plainAttributes href, a.IsValid := by
  simp only [plainAttributes, List.forall_mem_cons]
  exact ⟨isValid_quotedAttribute (by simp) (by simp),
    isValid_quotedAttribute (by simp) (quote_not_mem_escape href), by simp⟩

/-- A link with these attributes. -/
def linkTag (attrs : List WrittenAttribute) : Tag where
  closing := false
  written := "link".toList
  rest := sourceOf attrs ++ tail false

theorem name_linkTag (attrs : List WrittenAttribute) : (linkTag attrs).name = "link" :=
  show String.ofList (Text.lowercase "link".toList) = "link" by decide

theorem scan_linkTag {attrs : List WrittenAttribute} (hattrs : ∀ a ∈ attrs, a.IsValid)
    (more : List Char) :
    scan ((linkTag attrs).source ++ more) = .tag (linkTag attrs) :: scan more := by
  have hname : IsTagName "link".toList := ⟨_, _, rfl, by decide, List.all_eq_true.1 (by decide)⟩
  have hraw : (linkTag attrs).opensRawText = false := by
    have hnot : Tag.rawTextNames.contains (linkTag attrs).name = false := by
      rw [name_linkTag]
      decide
    rw [Tag.opensRawText, hnot, Bool.and_false]
  exact (readable_sourceOf hname hattrs false).scan_tag hraw more

/-- A start tag of a link whose `href`, with the entities decoded, is the address. -/
structure IsLinkTo (t : Tag) (href : String) : Prop where
  closing : t.closing = false
  name : t.name = "link"
  href : ((attributeMap t.rest).lookup "href").map (fun value => decode value.toList)
    = some href.toList

theorem isLinkTo_linkTag {attrs : List WrittenAttribute} {href : String}
    (hattrs : ∀ a ∈ attrs, a.IsValid) (hnames : (attrs.map WrittenAttribute.name).Nodup)
    (hhref : (attrs.map WrittenAttribute.entry).lookup "href" = some (escape href)) :
    IsLinkTo (linkTag attrs) href where
  closing := rfl
  name := name_linkTag attrs
  href := by
    rw [linkTag, attributeMap_sourceOf hattrs hnames, hhref, Option.map_some, decode_escape]

theorem isLinkTo_preload (href : String) : IsLinkTo (linkTag (preloadAttributes href)) href :=
  isLinkTo_linkTag (isValid_preloadAttributes href)
    (by simp [preloadAttributes, quotedAttribute])
    (by simp [preloadAttributes, quotedAttribute, WrittenAttribute.entry, Form.read, Value.text,
      List.lookup_cons])

theorem isLinkTo_plain (href : String) : IsLinkTo (linkTag (plainAttributes href)) href :=
  isLinkTo_linkTag (isValid_plainAttributes href)
    (by simp [plainAttributes, quotedAttribute])
    (by simp [plainAttributes, quotedAttribute, WrittenAttribute.entry, Form.read, Value.text,
      List.lookup_cons])

theorem nonCriticalTag_eq {css : String} (hcss : css ≠ "") (href : String) :
    (nonCriticalTag css href).toList = (linkTag (preloadAttributes href)).source
      ++ ("<noscript>".toList ++ ((linkTag (plainAttributes href)).source
        ++ "</noscript>".toList)) := by
  rw [nonCriticalTag, if_neg (by simpa using hcss)]
  simp [linkTag, Tag.source, preloadAttributes, plainAttributes, quotedAttribute, sourceOf, tail,
    WrittenAttribute.source, Form.source]

/-- The links are scanned as they are meant, for every address. -/
theorem scan_nonCriticalTag {css : String} (hcss : css ≠ "") (href : String) :
    scan (nonCriticalTag css href).toList = [.tag (linkTag (preloadAttributes href)),
      .tag ⟨false, "noscript".toList, []⟩, .tag (linkTag (plainAttributes href)),
      .tag ⟨true, "noscript".toList, []⟩] := by
  have hstart : scan "<noscript>".toList = [.tag ⟨false, "noscript".toList, []⟩] := by
    decide +kernel
  have hend : scan "</noscript>".toList = [.tag ⟨true, "noscript".toList, []⟩] := by
    decide +kernel
  rw [nonCriticalTag_eq hcss, scan_linkTag (isValid_preloadAttributes href),
    scan_tag_append hstart, scan_linkTag (isValid_plainAttributes href), hend]

/-! ## The critical CSS -/

/-- The pieces that the tags for a page are meant to be: a `style` element that holds the CSS, and
two links to the stylesheet, the second one for readers without scripts. -/
def Intact (critical href : String) (pieces : List Piece) : Prop :=
  ∃ preload plain : Tag, IsLinkTo preload href ∧ IsLinkTo plain href ∧
    pieces = [.tag ⟨false, "style".toList, []⟩, .rawText critical.toList,
      .tag ⟨true, "style".toList, []⟩, .tag preload, .tag ⟨false, "noscript".toList, []⟩,
      .tag plain, .tag ⟨true, "noscript".toList, []⟩]

/-- The names of the tags among pieces, that of an end tag with a slash before it. -/
def tagNames (pieces : List Piece) : List String :=
  pieces.filterMap fun
    | .tag t => some (if t.closing then "/" ++ t.name else t.name)
    | _ => none

theorem Intact.tagNames_eq {critical href : String} {pieces : List Piece}
    (h : Intact critical href pieces) :
    tagNames pieces = ["style", "/style", "link", "noscript", "link", "/noscript"] := by
  obtain ⟨preload, plain, hpreload, hplain, rfl⟩ := h
  have hlinks : tagNames [.tag preload, .tag ⟨false, "noscript".toList, []⟩, .tag plain,
      .tag ⟨true, "noscript".toList, []⟩] = [if preload.closing then "/" ++ preload.name
        else preload.name, "noscript", if plain.closing then "/" ++ plain.name else plain.name,
      "/noscript"] := rfl
  rw [hpreload.closing, hpreload.name, hplain.closing, hplain.name] at hlinks
  exact congrArg (["style", "/style"] ++ ·) hlinks

/-- The `style` element holds the CSS up to the first place at which an end tag seems to begin. -/
theorem scan_criticalTag {critical : String} (hcritical : critical ≠ "") {body rest : List Char}
    (hcut : (Text.breakBefore? (beginsEndTag "style".toList) critical.toList).getD
      (critical.toList, []) = (body, rest)) (more : List Char) :
    scan ((criticalTag critical).toList ++ more) = .tag ⟨false, "style".toList, []⟩ :: .rawText body
      :: scan (rest ++ ("</style>".toList ++ more)) := by
  have hstyle : "style" ∈ Tag.rawTextNames := by decide
  have hsource : (criticalTag critical).toList ++ more = ("<" ++ "style" ++ ">").toList
      ++ (critical.toList ++ (("</" ++ "style" ++ ">").toList ++ more)) := by
    rw [criticalTag, if_neg (by simpa using hcritical)]
    simp
  rw [hsource, scan_rawText_element hstyle hcut]
  rfl

theorem scan_criticalTag_of_free {critical : String} (hcritical : critical ≠ "")
    (hfree : FreeOfEndTag "style" critical) (more : List Char) :
    scan ((criticalTag critical).toList ++ more) = .tag ⟨false, "style".toList, []⟩
      :: .rawText critical.toList :: .tag ⟨true, "style".toList, []⟩ :: scan more := by
  have hend : scan "</style>".toList = [.tag ⟨true, "style".toList, []⟩] := by decide +kernel
  have hcut : (Text.breakBefore? (beginsEndTag "style".toList) critical.toList).getD
      (critical.toList, []) = (critical.toList, []) := by
    rw [freeOfEndTag_iff.1 hfree]
    rfl
  rw [scan_criticalTag hcritical hcut, List.nil_append, scan_tag_append hend]

/-- **The tags for a page stay what they are meant to be exactly if no end tag of `style` seems to
begin in the critical CSS.** No address of the stylesheet makes a difference. -/
theorem intact_iff (critical nonCritical basePath : String) (hcritical : critical ≠ "")
    (hnonCritical : nonCritical ≠ "") :
    Intact critical (stylesheetHref basePath)
        (scan (criticalTag critical ++ nonCriticalTag nonCritical (stylesheetHref basePath)).toList)
      ↔ FreeOfEndTag "style" critical := by
  rw [String.toList_append]
  constructor
  · rintro ⟨preload, plain, -, -, hscan⟩
    rw [freeOfEndTag_iff]
    cases hbreak : Text.breakBefore? (beginsEndTag "style".toList) critical.toList with
    | none => rfl
    | some cut =>
        obtain ⟨body, rest⟩ := cut
        have hcut : (Text.breakBefore? (beginsEndTag "style".toList) critical.toList).getD
            (critical.toList, []) = (body, rest) := by
          rw [hbreak]
          rfl
        rw [scan_criticalTag hcritical hcut] at hscan
        obtain ⟨-, htail⟩ := List.cons.inj hscan
        obtain ⟨hbody, -⟩ := List.cons.inj htail
        obtain ⟨htext, hbegins, -⟩ := Text.breakBefore?_eq_some_iff.1 hbreak
        -- The whole CSS in front of the end tag leaves nothing for it to begin with.
        rw [Piece.rawText.inj hbody, List.append_right_eq_self] at htext
        rw [htext] at hbegins
        exact absurd hbegins (by decide)
  · intro hfree
    refine ⟨linkTag (preloadAttributes (stylesheetHref basePath)),
      linkTag (plainAttributes (stylesheetHref basePath)), isLinkTo_preload _, isLinkTo_plain _, ?_⟩
    rw [scan_criticalTag_of_free hcritical hfree, scan_nonCriticalTag hnonCritical]

/-- CSS with quotes, half an end tag and what looks like a link and an entity. -/
def lookalikeCss : String := ".t::before\x7bcontent:'</styl<a href=\">&lt;'\x7d"

/-- A path with both quotes, an angle bracket and what looks like an entity. -/
def lookalikePath : String := "/a&lt;\"b'>//"

theorem intact_iff_lookalike :
    stylesheetHref lookalikePath = "/a&lt;\"b'>/styles.css" ∧
    Intact lookalikeCss (stylesheetHref lookalikePath) (scan (criticalTag lookalikeCss
      ++ nonCriticalTag ".u\x7bgap:0\x7d" (stylesheetHref lookalikePath)).toList) :=
  ⟨by decide +kernel,
    (intact_iff lookalikeCss ".u\x7bgap:0\x7d" lookalikePath (by decide +kernel) (by decide)).2
      (by decide +kernel)⟩

/-- CSS with a string that closes the `style` element and goes on with a component. -/
def closingCss : String := ".t::before\x7bcontent:'</style><c-nav></c-nav>'\x7d"

theorem not_intact_closingCss :
    closingCss ≠ "" ∧
    tagNames (scan (criticalTag closingCss
        ++ nonCriticalTag ".u\x7bgap:0\x7d" (stylesheetHref "")).toList)
      = ["style", "/style", "c-nav", "/c-nav", "/style", "link", "noscript", "link", "/noscript"] ∧
    ¬ Intact closingCss (stylesheetHref "") (scan (criticalTag closingCss
        ++ nonCriticalTag ".u\x7bgap:0\x7d" (stylesheetHref "")).toList) := by
  have hnames : tagNames (scan (criticalTag closingCss
        ++ nonCriticalTag ".u\x7bgap:0\x7d" (stylesheetHref "")).toList)
      = ["style", "/style", "c-nav", "/c-nav", "/style", "link", "noscript", "link", "/noscript"] := by
    decide +kernel
  refine ⟨by decide +kernel, hnames, fun hintact => ?_⟩
  rw [hintact.tagNames_eq] at hnames
  exact absurd hnames (by decide)

end SiteCompiler.Page
