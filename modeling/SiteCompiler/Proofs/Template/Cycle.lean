import SiteCompiler.Proofs.Template.Reading
import Mathlib.Logic.Relation
set_option autoImplicit false

/-! # A component inside itself

An expansion that stops at a repeated component would not have come to an end without the check. Let
a document *lead to* a template if the free expansion, going through the document from the left,
comes to a component with this template (`LeadsTo`). Where every component of a name has the same
template, the documents on the way down to a repeated component lead to each other in a circle, and
a free expansion that goes round a circle uses up any depth (`diverges_of_circle`).

Conversely an expansion without a repeated component is a free one, so the check rejects nothing
else (`circular_iff_diverges`).
-/

namespace SiteCompiler.Template

open Component Relation

section Free

variable (tree : FileTree) (templatesDir : Path)

/-- The free expansion of a document, deep enough, fills in all segments up to a component with
this template. -/
def LeadsTo (html template : String) : Prop :=
  ∃ before ref source after depth parts, segments html = before ++ .component ref source :: after ∧
    before.mapM (fillSegment tree templatesDir enterAlways fun _ template =>
      expandFreely tree templatesDir depth template) = .ok parts ∧
    load tree templatesDir ref = .ok template

/-- The free expansion of a document needs more than any depth. -/
def Diverges (html : String) : Prop :=
  ∀ depth, expandFreely tree templatesDir depth html = .error .tooDeep

end Free

variable {tree : FileTree} {templatesDir : Path}

/-! ## Going round in a circle -/

/-- A free expansion that does not come to its end does not do so with less depth either. -/
theorem tooDeep_of_le {depth deeper : Nat} (hle : depth ≤ deeper) {html : String}
    (h : expandFreely tree templatesDir deeper html = .error .tooDeep) :
    expandFreely tree templatesDir depth html = .error .tooDeep := by
  by_contra hne
  rw [expandFreely_eq_of_le hle hne] at h
  exact hne h

/-- The expansion of a template costs the document one level more. The segments before its component
are no way out: with less depth than they need, they use it up themselves. -/
theorem LeadsTo.tooDeep {html template : String} (h : LeadsTo tree templatesDir html template)
    {depth : Nat} (htemplate : expandFreely tree templatesDir depth template = .error .tooDeep) :
    expandFreely tree templatesDir (depth + 1) html = .error .tooDeep := by
  obtain ⟨before, ref, source, after, enough, parts, hsegments, hbefore, hload⟩ := h
  let fill (depth : Nat) := fillSegment tree templatesDir enterAlways fun _ template =>
    expandFreely tree templatesDir depth template
  have hle : ∀ {depth deeper : Nat}, depth ≤ deeper →
      before.mapM (fill depth) ≠ .error .tooDeep →
      before.mapM (fill deeper) = before.mapM (fill depth) := by
    intro depth deeper hle hne
    refine fillAll_congr_unless (· = .tooDeep) (fun _ _ => rfl) (fun _ template he => ?_) ?_
    · exact expandFreely_eq_of_le hle fun heq => he _ heq rfl
    · rintro e he rfl
      exact hne he
  have hall : (segments html).mapM (fill depth) = .error .tooDeep := by
    by_cases htooDeep : before.mapM (fill depth) = .error .tooDeep
    · -- The depth is used up in front of the component.
      obtain ⟨before', segment, after', parts', hsplit, hbefore', hsegment⟩ :=
        Sequence.mapM_eq_error_iff.1 htooDeep
      refine Sequence.mapM_eq_error_iff.2
        ⟨before', segment, after' ++ .component ref source :: after, parts', ?_, hbefore', hsegment⟩
      rw [hsegments, hsplit, List.append_assoc, List.cons_append]
    · -- What stands in front is filled in as it is with enough depth, so its error is the template's.
      have hok : before.mapM (fill depth) = .ok parts := by
        calc before.mapM (fill depth)
            = before.mapM (fill (max depth enough)) := (hle (Nat.le_max_left _ _) htooDeep).symm
          _ = before.mapM (fill enough) :=
              hle (Nat.le_max_right _ _) fun he => nomatch hbefore.symm.trans he
          _ = .ok parts := hbefore
      refine Sequence.mapM_eq_error_iff.2
        ⟨before, .component ref source, after, parts, hsegments, hok, ?_⟩
      simp only [fill, fillSegment, hload]
      exact htemplate
  rw [expandFreely_succ, fillDocument, hall]
  rfl

theorem tooDeep_of_leads {html inner : String}
    (h : ReflTransGen (LeadsTo tree templatesDir) html inner) {depth : Nat}
    (hinner : expandFreely tree templatesDir depth inner = .error .tooDeep) :
    expandFreely tree templatesDir depth html = .error .tooDeep := by
  induction h using ReflTransGen.head_induction_on with
  | refl => exact hinner
  | head hleads _ ih => exact tooDeep_of_le (Nat.le_succ depth) (hleads.tooDeep ih)

theorem LeadsTo.diverges {html template : String} (h : LeadsTo tree templatesDir html template)
    (htemplate : Diverges tree templatesDir template) : Diverges tree templatesDir html :=
  fun depth => tooDeep_of_le (Nat.le_succ depth) (h.tooDeep (htemplate depth))

/-- **A document that leads back to itself needs more than any depth**: each time round costs at
least one level. -/
theorem diverges_of_circle {html template : String} (h : LeadsTo tree templatesDir html template)
    (hback : ReflTransGen (LeadsTo tree templatesDir) template html) :
    Diverges tree templatesDir html := by
  intro depth
  induction depth with
  | zero => rfl
  | succ depth ih => exact h.tooDeep (tooDeep_of_leads hback ih)

/-! ## A repeated component closes a circle -/

/-- The names of a chain belong to templates that lead down to the document. -/
def LeadDownTo (tree : FileTree) (templatesDir : Path) (chain : List String) (html : String) :
    Prop :=
  ∀ name ∈ chain, ∃ template, ReflTransGen (LeadsTo tree templatesDir) template html ∧
    ∀ ref : ComponentRef, ref.componentName = name → ¬ NamesTemplate ref →
      load tree templatesDir ref = .ok template

theorem LeadDownTo.append {chain : List String} {html template : String} {ref : ComponentRef}
    (h : LeadDownTo tree templatesDir chain html) (hleads : LeadsTo tree templatesDir html template)
    (hload : load tree templatesDir ref = .ok template) (href : ¬ NamesTemplate ref) :
    LeadDownTo tree templatesDir (chain ++ [ref.componentName]) template := by
  intro name hname
  rcases List.mem_append.1 hname with hname | hname
  · obtain ⟨above, habove, hname⟩ := h name hname
    exact ⟨above, habove.tail hleads, hname⟩
  · refine ⟨template, ReflTransGen.refl, fun ref' href' hplain => ?_⟩
    rw [List.mem_singleton.1 hname] at href'
    rw [load_eq_of_componentName href' hplain href, hload]

/-- Segments that a guarded expansion fills in are filled in by the free one as well. -/
theorem LeadsTo.of_before {depth : Nat} {chain : List String} {html template : String}
    {before after : List Segment} {ref : ComponentRef} {source : List Char} {parts : List String}
    (hsegments : segments html = before ++ .component ref source :: after)
    (hbefore : before.mapM (fillSegment tree templatesDir (enterUnlessIn chain) fun ref template =>
      expandWithin tree templatesDir depth (chain ++ [ref.componentName]) template) = .ok parts)
    (hload : load tree templatesDir ref = .ok template) :
    LeadsTo tree templatesDir html template := by
  refine ⟨before, ref, source, after, depth, parts, hsegments, ?_, hload⟩
  rw [← hbefore]
  refine fillAll_congr_unless CompileError.IsCircular (fun _ => enterAlways_eq)
    (fun _ _ => expandFreely_eq_expandWithin) fun e he => ?_
  rw [hbefore] at he
  cases he

/-- The invariant carried down the recursion is `LeadDownTo`: where a name of the chain is met
again, its template leads down to the document it is met in, and this document back to it. -/
theorem diverges_of_circular {depth : Nat} {chain : List String} {html component : String}
    {chain' : List String}
    (h : expandWithin tree templatesDir depth chain html = .error (.circular component chain'))
    (hchain : LeadDownTo tree templatesDir chain html)
    (hplain : ∀ doc, doc = html ∨ Reads tree templatesDir depth chain html doc →
      ∀ ref ∈ extractComponents doc, ¬ NamesTemplate ref) :
    Diverges tree templatesDir html := by
  induction depth generalizing chain html with
  | zero => cases h
  | succ depth ih =>
      rw [expandWithin_succ] at h
      obtain ⟨before, ref, source, after, parts, hsegments, hbefore, h⟩ := fillDocument_eq_error h
      have hmem : .component ref source ∈ segments html := by
        rw [hsegments]
        exact List.mem_append_right _ List.mem_cons_self
      have href : ¬ NamesTemplate ref := hplain html (Or.inl rfl) ref (mem_extractComponents hmem)
      rcases h with henter | ⟨henter, hload | ⟨template, hload, hexpand⟩⟩
      · -- The name is met again here.
        obtain ⟨hrepeated, -⟩ := enterUnlessIn_eq_error_iff.1 henter
        obtain ⟨template, hdown, hload⟩ := hchain _ hrepeated
        exact diverges_of_circle (LeadsTo.of_before hsegments hbefore (hload ref rfl href)) hdown
      · rcases load_eq_error hload with ⟨reason, he⟩ | ⟨path, reason, he⟩ <;> cases he
      · -- The name is met again inside the template, one name further down the chain.
        have hleads : LeadsTo tree templatesDir html template :=
          LeadsTo.of_before hsegments hbefore hload
        have henters : Enters tree templatesDir depth chain html ref template :=
          ⟨before, source, after, parts, hsegments, hbefore, henter, hload⟩
        refine hleads.diverges (ih hexpand (hchain.append hleads hload href) ?_)
        rintro doc (rfl | hreads)
        · exact hplain _ (Or.inr (.here henters))
        · exact hplain doc (Or.inr (.inside henters hreads))

/-! ## What the check decides -/

/-- Without a repeated component the free expansion, deep enough, has the same result. -/
theorem expandFreely_eq_compile {html : String}
    (h : ∀ component chain, compile tree templatesDir html ≠ .error (.circular component chain)) :
    ∃ enough, ∀ depth ≥ enough,
      expandFreely tree templatesDir depth html = compile tree templatesDir html := by
  have hfree : expandFreely tree templatesDir (depthBound tree html) html
      = compile tree templatesDir html := by
    refine expandFreely_eq_expandWithin fun e he => ?_
    rintro ⟨component, chain, rfl⟩
    exact h component chain he
  refine ⟨depthBound tree html, fun depth hdepth => ?_⟩
  rw [← hfree]
  refine expandFreely_eq_of_le hdepth ?_
  rw [hfree]
  exact compile_ne_tooDeep html

theorem circular_iff_diverges {html : String}
    (hplain : ∀ doc, doc = html ∨ Reads tree templatesDir (depthBound tree html) [] html doc →
      ∀ ref ∈ extractComponents doc, ¬ NamesTemplate ref) :
    (∃ component chain, compile tree templatesDir html = .error (.circular component chain)) ↔
      Diverges tree templatesDir html := by
  constructor
  · rintro ⟨component, chain, h⟩
    exact diverges_of_circular h (fun name hname => nomatch hname) hplain
  · intro hdiverges
    by_contra hnot
    obtain ⟨enough, h⟩ := expandFreely_eq_compile fun component chain he =>
      hnot ⟨component, chain, he⟩
    exact compile_ne_tooDeep html ((h enough (Nat.le_refl _)).symm.trans (hdiverges enough))

/-- **The check for repeated components is exact.** Expansion ends at a depth of at most one more
than the number of component names in the document and the tree. A result other than a repeated
component is the one without the check. And if no element on the way names its template by itself,
a repeated component is reported exactly where the expansion without the check would not end. -/
theorem compile_exact (tree : FileTree) (templatesDir : Path) (html : String) :
    compile tree templatesDir html ≠ .error .tooDeep ∧
    (∀ depth, (namesWithin tree html).card < depth →
      expandWithin tree templatesDir depth [] html = compile tree templatesDir html) ∧
    ((∀ component chain, compile tree templatesDir html ≠ .error (.circular component chain)) →
      ∃ enough, ∀ depth ≥ enough,
        expandFreely tree templatesDir depth html = compile tree templatesDir html) ∧
    ((∀ doc, doc = html ∨ Reads tree templatesDir (depthBound tree html) [] html doc →
        ∀ ref ∈ extractComponents doc, ¬ NamesTemplate ref) →
      ((∃ component chain, compile tree templatesDir html = .error (.circular component chain)) ↔
        ∀ depth, expandFreely tree templatesDir depth html = .error .tooDeep)) :=
  ⟨compile_ne_tooDeep html, fun _ => expandWithin_eq_compile, expandFreely_eq_compile,
    circular_iff_diverges⟩

/-- A tree with a component that contains itself and with one that does not. -/
def ringTree : FileTree where
  entries := [(["a.html"], .file "<c-a></c-a>".toUTF8), (["x.html"], .file "x".toUTF8)]

theorem load_ringTree_a : load ringTree ⟨""⟩ ⟨"c-a", "a", []⟩ = .ok "<c-a></c-a>" := by
  have hsegments : (path ⟨""⟩ "a").segments = ["a.html"] := by decide +kernel
  exact load_of_locate (fun ⟨_, h, _⟩ => nomatch h)
    (FileTree.locate_of_segments hsegments (by decide +kernel) rfl) rfl

theorem load_ringTree_x : load ringTree ⟨""⟩ ⟨"c-x", "x", []⟩ = .ok "x" := by
  have hsegments : (path ⟨""⟩ "x").segments = ["x.html"] := by decide +kernel
  exact load_of_locate (fun ⟨_, h, _⟩ => nomatch h)
    (FileTree.locate_of_segments hsegments (by decide +kernel) rfl) rfl

theorem compile_ringTree_a :
    compile ringTree ⟨""⟩ "<c-a></c-a>" = .error (.circular "a" ["a"]) := by
  have hsegments : segments "<c-a></c-a>" = [.component ⟨"c-a", "a", []⟩ "<c-a></c-a>".toList] := by
    decide +kernel
  have hdepth : depthBound ringTree "<c-a></c-a>" = 24 := by decide +kernel
  have hinner (depth : Nat) : expandWithin ringTree ⟨""⟩ (depth + 1) ["a"] "<c-a></c-a>"
      = .error (.circular "a" ["a"]) := by
    rw [expandWithin_succ, fillDocument, hsegments]
    rfl
  rw [compile, hdepth, expandWithin_succ, fillDocument, hsegments,
    Sequence.mapM_cons_of_error (e := .circular "a" ["a"])]
  · rfl
  · simp only [fillSegment, load_ringTree_a]
    exact hinner _

theorem compile_ringTree_x : compile ringTree ⟨""⟩ "<c-x></c-x>" = .ok "x" := by
  have hsegments : segments "<c-x></c-x>" = [.component ⟨"c-x", "x", []⟩ "<c-x></c-x>".toList] := by
    decide +kernel
  have htext : segments "x" = [.text ['x']] := by decide +kernel
  have hdepth : depthBound ringTree "<c-x></c-x>" = 24 := by decide +kernel
  have hinner (depth : Nat) : expandWithin ringTree ⟨""⟩ (depth + 1) ["x"] "x" = .ok "x" := by
    rw [expandWithin_succ, fillDocument, htext]
    rfl
  rw [compile, hdepth, expandWithin_succ, fillDocument, hsegments,
    Sequence.mapM_cons_of_ok (y := "x")]
  · rfl
  · simp only [fillSegment, load_ringTree_x]
    exact hinner _

theorem compile_exact_ringTree :
    (∃ enough, ∀ depth ≥ enough,
      expandFreely ringTree ⟨""⟩ depth "<c-x></c-x>" = .ok "x") ∧
    ∀ depth, expandFreely ringTree ⟨""⟩ depth "<c-a></c-a>" = .error .tooDeep := by
  constructor
  · obtain ⟨enough, h⟩ := (compile_exact ringTree ⟨""⟩ "<c-x></c-x>").2.2.1
      fun component chain he => nomatch compile_ringTree_x.symm.trans he
    exact ⟨enough, fun depth hdepth => (h depth hdepth).trans compile_ringTree_x⟩
  · refine ((compile_exact ringTree ⟨""⟩ "<c-a></c-a>").2.2.2 ?_).1 ⟨"a", ["a"], compile_ringTree_a⟩
    rintro doc hdoc ref href ⟨value, hvalue, -⟩
    have hmem : doc ∈ "<c-a></c-a>" :: ringTree.texts := by
      rcases hdoc with rfl | hreads
      · exact List.mem_cons_self
      · exact List.mem_cons_of_mem _ hreads.mem_texts
    have hnone : ∀ text ∈ "<c-a></c-a>" :: ringTree.texts, ∀ ref ∈ extractComponents text,
        ref.attributes.lookup sourceAttribute = none := by
      decide +kernel
    rw [hnone doc hmem ref href] at hvalue
    cases hvalue

end SiteCompiler.Template
