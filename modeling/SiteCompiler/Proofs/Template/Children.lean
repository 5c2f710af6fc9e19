import SiteCompiler.Proofs.Component.Closed
import SiteCompiler.Proofs.Component.Nesting
import SiteCompiler.Proofs.Template.Depth
set_option autoImplicit false

/-! # The children of a component

A component element is replaced as a whole, so an expansion looks only at the outline of a document:
the text outside its elements and the components that they refer to (`compile_congr_outline`). Two
documents that differ in nested pieces inside one element have the same outline. Hence the children
of a component can be exchanged for others, whatever stands around the element
(`compile_children_eq`).
-/

namespace SiteCompiler.Template

open Component

variable {tree : FileTree} {templatesDir : Path}

/-! ## Outlines -/

theorem fillSegment_outline (enter : ComponentRef → Except CompileError Unit)
    (expand : ComponentRef → String → Except CompileError String) (segment : Segment) :
    fillSegment tree templatesDir enter expand segment.outline
      = fillSegment tree templatesDir enter expand segment := by
  cases segment <;> rfl

theorem fillDocument_congr_outline {enter : ComponentRef → Except CompileError Unit}
    {expand : ComponentRef → String → Except CompileError String} {html html' : String}
    (h : (segments html).map Segment.outline = (segments html').map Segment.outline) :
    fillDocument tree templatesDir enter expand html
      = fillDocument tree templatesDir enter expand html' := by
  have houtline : ∀ parts : List Segment,
      (parts.map Segment.outline).mapM (fillSegment tree templatesDir enter expand)
        = parts.mapM (fillSegment tree templatesDir enter expand) := by
    intro parts
    rw [List.mapM_map]
    exact congrArg (fun fill => parts.mapM fill) (funext (fillSegment_outline enter expand))
  rw [fillDocument, fillDocument, ← houtline, h, houtline]

/-- Documents of one outline have the same expansion. They may be of different lengths, so both are
expanded at a depth that is enough for either. -/
theorem compile_congr_outline {html html' : String}
    (h : (segments html).map Segment.outline = (segments html').map Segment.outline) :
    compile tree templatesDir html = compile tree templatesDir html' := by
  let depth := max (namesWithin tree html).card (namesWithin tree html').card
  calc compile tree templatesDir html
      = expandWithin tree templatesDir (depth + 1) [] html :=
        (expandWithin_eq_compile (Nat.lt_succ_of_le (Nat.le_max_left _ _))).symm
    _ = expandWithin tree templatesDir (depth + 1) [] html' := by
        rw [expandWithin_succ, expandWithin_succ, fillDocument_congr_outline h]
    _ = compile tree templatesDir html' :=
        expandWithin_eq_compile (Nat.lt_succ_of_le (Nat.le_max_right _ _))

/-! ## Children -/

/-- The pieces of a document around an element. The children are read as if they stood alone, since
the end tag stands behind them. -/
theorem scan_around {a s x e : List Char} {t closer : Tag}
    (ha : ∀ piece ∈ scan a, piece.isClosed = true) (hs : scan s = [.tag t])
    (hx : ∀ piece ∈ scan x, piece.isClosed = true) (he : scan e = [.tag closer]) (b : List Char) :
    scan (a ++ (s ++ (x ++ (e ++ b))))
      = scan a ++ .tag t :: (scan x ++ .tag closer :: scan b) := by
  have hinside : scan (x ++ (e ++ b)) = scan x ++ .tag closer :: scan b :=
    scan_append_tag hx (scan_tag_append he b)
  have hfrom : scan (s ++ (x ++ (e ++ b))) = .tag t :: (scan x ++ .tag closer :: scan b) := by
    rw [scan_tag_append hs, hinside]
  exact scan_append_tag ha hfrom

/-- **The children of a component do not matter.** Let a closed document stand in front of a start
tag of a component that does not close itself, and anything behind the end tag. If the children are
closed and the tags of each component name in them are nested, other children of this kind give the
same expansion or the same error. -/
theorem compile_children_eq (tree : FileTree) (templatesDir : Path) {a s x y : String} {t : Tag}
    (ha : Closed a) (hs : scan s.toList = [.tag t]) (hclosing : t.closing = false)
    (hname : isComponentTag t.name = true) (hself : t.selfClosing = false) (hx : Closed x)
    (hxNested : Nested (scan x.toList)) (hy : Closed y) (hyNested : Nested (scan y.toList))
    (b : String) :
    compile tree templatesDir (a ++ s ++ x ++ ("</" ++ t.name ++ ">") ++ b)
      = compile tree templatesDir (a ++ s ++ y ++ ("</" ++ t.name ++ ">") ++ b) := by
  have hwritten : t.name.toList = Text.lowercase t.written := String.toList_ofList
  have hisName : IsTagName t.name.toList := by
    rw [hwritten]
    exact (readable_of_scan_eq hs).1.isName.lowercase
  have hencloses : Encloses t ⟨true, t.name.toList, []⟩ := by
    refine ⟨by simp [Piece.componentTag?, hclosing, hname], hself, rfl, ?_⟩
    rw [Tag.name, hwritten, lowercase_lowercase]
    rfl
  have hscan : ∀ z : String, Closed z →
      scan (a ++ s ++ z ++ ("</" ++ t.name ++ ">") ++ b).toList = scan a.toList
        ++ .tag t :: (scan z.toList ++ .tag ⟨true, t.name.toList, []⟩ :: scan b.toList) := by
    intro z hz
    have hparts : ∀ e : String, (a ++ s ++ z ++ e ++ b).toList
        = a.toList ++ (s.toList ++ (z.toList ++ (e.toList ++ b.toList))) := by
      intro e
      simp only [String.toList_append, List.append_assoc]
    rw [hparts]
    exact scan_around ha hs hz (scan_endTag hisName) b.toList
  refine compile_congr_outline ?_
  rw [segments, segments, hscan x hx, hscan y hy]
  exact map_outline_segmentsOf hencloses hxNested hyNested _ _

/-- A tree with two templates. -/
def pairTree : FileTree where
  entries := [(["a.html"], .file "<b>a</b>".toUTF8), (["v.html"], .file "<i>v</i>".toUTF8)]

/-- The children hold an element whose template is missing, and an end tag in a comment; an element
of a name that they hold too is left open in front. -/
theorem compile_children_eq_pairTree :
    compile pairTree ⟨""⟩ ("<c-v>1 <" ++ "<C-A t='/'>" ++ "<c-v><c-z></c-z></c-v><!--</c-a>-->"
        ++ ("</" ++ "c-a" ++ ">") ++ "<c-v/>2")
      = compile pairTree ⟨""⟩ ("<c-v>1 <" ++ "<C-A t='/'>" ++ "" ++ ("</" ++ "c-a" ++ ">")
        ++ "<c-v/>2") ∧
    compile pairTree ⟨""⟩ ("<c-v>1 <" ++ "<C-A t='/'>" ++ "" ++ ("</" ++ "c-a" ++ ">")
        ++ "<c-v/>2") = .ok "<i>v</i>1 <<b>a</b><i>v</i>2" := by
  have hname : (Tag.mk false "C-A".toList " t='/'".toList).name = "c-a" := by decide +kernel
  have hsame := compile_children_eq pairTree ⟨""⟩ (a := "<c-v>1 <") (s := "<C-A t='/'>")
    (x := "<c-v><c-z></c-z></c-v><!--</c-a>-->") (y := "")
    (t := ⟨false, "C-A".toList, " t='/'".toList⟩) (by decide +kernel) (by decide +kernel) rfl
    (by decide +kernel) (by decide +kernel) (by decide +kernel) (by decide +kernel)
    (by decide +kernel) (by decide +kernel) "<c-v/>2"
  rw [hname] at hsame
  exact ⟨hsame, by decide +kernel⟩

end SiteCompiler.Template
