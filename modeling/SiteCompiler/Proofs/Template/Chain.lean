import SiteCompiler.Proofs.Template.Expansion
set_option autoImplicit false

/-! # The chain of a repeated component

A component that is met inside its own expansion is reported with a chain of names. The chain is the
way by which the expansion has come there: its first name is that of an element of the document, and
every name after it that of an element in the template file of the element before (`Descends`). The
repeated component stands in the last of these files, and its name is one of the chain
(`compile_circular`).
-/

namespace SiteCompiler.Template

open Component

section Descent

variable (tree : FileTree) (templatesDir : Path)

/-- Elements lead from a document down to another one. Each is an outermost element of the document
reached so far, and the next document is the template file that this element, with its own
attributes, resolves to. -/
inductive Descends : String → List ComponentElement → String → Prop
  | here (html : String) : Descends html [] html
  | into {html template doc : String} {path : Path} {e : ComponentElement}
      {es : List ComponentElement} :
      e ∈ findComponents html →
      resolve tree templatesDir e.component.componentName
        (e.component.attributes.lookup sourceAttribute) = .ok path →
      tree.readText path = .ok template →
      Descends template es doc →
      Descends html (e :: es) doc

end Descent

variable {tree : FileTree} {templatesDir : Path}

/-! ## One step down -/

/-- The components that a document is cut at are those of its outermost elements. -/
theorem exists_mem_elementsFrom {ref : ComponentRef} {source : List Char} {segments : List Segment}
    (h : .component ref source ∈ segments) (offset : Nat) :
    ∃ e ∈ elementsFrom offset segments, e.component = ref := by
  induction segments generalizing offset with
  | nil => cases h
  | cons segment rest ih =>
      rcases List.mem_cons.1 h with rfl | h
      · exact ⟨_, List.mem_cons_self, rfl⟩
      · obtain ⟨e, he, hcomponent⟩ := ih h (offset + Text.utf8Length segment.source)
        cases segment with
        | text => exact ⟨e, he, hcomponent⟩
        | component => exact ⟨e, List.mem_cons_of_mem _ he, hcomponent⟩

/-- A template is loaded from the file that the component resolves to. -/
theorem load_eq_ok_iff {ref : ComponentRef} {template : String} :
    load tree templatesDir ref = .ok template ↔ ∃ path,
      resolve tree templatesDir ref.componentName (ref.attributes.lookup sourceAttribute) = .ok path ∧
        tree.readText path = .ok template := by
  unfold load
  split
  · next hresolve => simp [hresolve]
  · next path hresolve =>
      simp only [hresolve, Except.ok.injEq, exists_eq_left']
      split <;> simp_all

/-! ## The way down -/

/-- The induction is on the depth. The chain that the recursion carries is free of repetitions, since
a name is added to it only after the check, and what is reported is this chain, made longer by the
names on the way down. -/
theorem exists_descends_of_circular {depth : Nat} {chain chain' : List String}
    {html component : String} (hnodup : chain.Nodup)
    (h : expandWithin tree templatesDir depth chain html = .error (.circular component chain')) :
    chain'.Nodup ∧ component ∈ chain' ∧ ∃ es doc,
      chain' = chain ++ es.map (fun e => e.component.componentName) ∧
      Descends tree templatesDir html es doc ∧
      ∃ e ∈ findComponents doc, e.component.componentName = component := by
  induction depth generalizing chain html with
  | zero => cases h
  | succ depth ih =>
      rw [expandWithin_succ] at h
      obtain ⟨before, ref, source, after, parts, hsegments, -, h⟩ := fillDocument_eq_error h
      have hmem : .component ref source ∈ segments html := by
        rw [hsegments]
        exact List.mem_append_right _ List.mem_cons_self
      obtain ⟨e, he, rfl⟩ := exists_mem_elementsFrom hmem 0
      rcases h with henter | ⟨henter, hload | ⟨template, hload, hexpand⟩⟩
      · -- The component is met again in this document.
        obtain ⟨hrepeated, heq⟩ := enterUnlessIn_eq_error_iff.1 henter
        cases heq
        exact ⟨hnodup, hrepeated, [], html, by simp, .here html, e, he, rfl⟩
      · rcases load_eq_error hload with ⟨reason, heq⟩ | ⟨path, reason, heq⟩ <;> cases heq
      · -- It is met again below this one, whose name is new to the chain.
        obtain ⟨hdistinct, hrepeated, es, doc, hchain, hdescends, hmet⟩ :=
          ih (nodup_append_of_enters hnodup henter) hexpand
        obtain ⟨path, hresolve, hread⟩ := load_eq_ok_iff.1 hload
        refine ⟨hdistinct, hrepeated, e :: es, doc, ?_, .into he hresolve hread hdescends, hmet⟩
        rw [hchain, List.append_assoc]
        rfl

/-- **The reported chain is real.** It is not empty, names no component twice, and contains the
repeated one. It is the way from the document down, element by element and template file by template
file, to a file in which the repeated component is an outermost element. -/
theorem compile_circular {html component : String} {chain : List String}
    (h : compile tree templatesDir html = .error (.circular component chain)) :
    chain ≠ [] ∧ chain.Nodup ∧ component ∈ chain ∧ ∃ es doc,
      chain = es.map (fun e => e.component.componentName) ∧
      Descends tree templatesDir html es doc ∧
      ∃ e ∈ findComponents doc, e.component.componentName = component := by
  obtain ⟨hnodup, hmem, hway⟩ := exists_descends_of_circular List.nodup_nil h
  exact ⟨List.ne_nil_of_mem hmem, hnodup, hmem, hway⟩

/-- A tree with a component that contains itself by way of a template which an element names, and
with one that does not. -/
def detourTree : FileTree where
  entries := [(["a.html"], .file "<c-d/><p><c-b _c_template-source='x/y.html'></c-b></p>".toUTF8),
    (["x"], .directory), (["x", "y.html"], .file "<c-d/><c-a/>".toUTF8),
    (["d.html"], .file "d".toUTF8)]

theorem compile_circular_detourTree :
    compile detourTree ⟨""⟩ "<c-d/><c-a></c-a>" = .error (.circular "a" ["a", "b"]) ∧
    ["a", "b"].Nodup ∧ ∃ es doc, ["a", "b"] = es.map (fun e => e.component.componentName) ∧
      Descends detourTree ⟨""⟩ "<c-d/><c-a></c-a>" es doc ∧
      ∃ e ∈ findComponents doc, e.component.componentName = "a" := by
  have hcircular : compile detourTree ⟨""⟩ "<c-d/><c-a></c-a>"
      = .error (.circular "a" ["a", "b"]) := by decide +kernel
  obtain ⟨-, hnodup, -, hway⟩ := compile_circular hcircular
  exact ⟨hcircular, hnodup, hway⟩

end SiteCompiler.Template
