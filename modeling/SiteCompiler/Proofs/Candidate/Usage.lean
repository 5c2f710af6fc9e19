import SiteCompiler.Candidate.Usage
import SiteCompiler.Html.Insertion
import SiteCompiler.Proofs.Candidate.Registry
set_option autoImplicit false

/-! # The candidates that a page uses

The walk over a page carries the names that it has met so far into every element. What it has in the
end depends on the page only through the class words of the page in document order: they are read
one after another (`usedByNodes_eq_foldl`), and of a list of words those that are registered stay
where they stand first (`foldl_addUsed`). Keeping first occurrences goes with leaving names out, so a
page uses of a part of the registry what it uses of the whole and is in the part (`used_exact`).
-/

namespace SiteCompiler

namespace Html

mutual

/-- The class words of an element and of all elements in it, in document order. -/
def Node.classes : Node → List String
  | .element kind contents children =>
      kind.classes ++ nodesClasses contents ++ nodesClasses children

/-- The class words of a list of elements, in document order. -/
def nodesClasses : List Node → List String
  | [] => []
  | node :: nodes => node.classes ++ nodesClasses nodes

end

end Html

namespace Candidate

open FirstOccurrence

variable {registry : Registry}

/-! ## The walk reads the words in document order -/

mutual

theorem usedByNode_eq_foldl (registry : Registry) (used : List String) (node : Html.Node) :
    usedByNode registry used node = node.classes.foldl (addUsed registry) used := by
  cases node with
  | element kind contents children =>
      rw [usedByNode, usedByNodes_eq_foldl registry _ children,
        usedByNodes_eq_foldl registry _ contents, Html.Node.classes, List.foldl_append,
        List.foldl_append]

theorem usedByNodes_eq_foldl (registry : Registry) (used : List String) (nodes : List Html.Node) :
    usedByNodes registry used nodes = (Html.nodesClasses nodes).foldl (addUsed registry) used := by
  cases nodes with
  | nil => rw [usedByNodes, Html.nodesClasses, List.foldl_nil]
  | cons node nodes =>
      rw [usedByNodes, usedByNodes_eq_foldl registry _ nodes,
        usedByNode_eq_foldl registry used node, Html.nodesClasses, List.foldl_append]

end

/-! ## Which of the words it keeps -/

/-- The induction is from the end: a word is compared with what has been kept of those before it. -/
theorem foldl_addUsed (registry : Registry) (words : List String) :
    words.foldl (addUsed registry) [] = (words.filter registry.contains).eraseDups := by
  induction words using List.reverseRecOn with
  | nil => rfl
  | append_singleton words word ih =>
      rw [List.foldl_append, List.foldl_cons, List.foldl_nil, ih, List.filter_append, addUsed]
      by_cases hword : registry.contains word = true
      · have hmet : (words.filter registry.contains).eraseDups.contains word
            = decide (word ∈ words.filter registry.contains) := by
          rw [List.contains_eq_mem, decide_eq_decide]
          exact List.mem_eraseDups
        rw [List.filter_cons_of_pos hword, List.filter_nil, eraseDups_concat, hword, Bool.true_and,
          hmet]
        by_cases hbefore : word ∈ words.filter registry.contains
        · rw [if_pos hbefore, if_neg (by simp [hbefore])]
        · rw [if_neg hbefore, if_pos (by simp [hbefore])]
      · rw [List.filter_cons_of_neg hword, List.filter_nil, List.append_nil, if_neg]
        simp [hword]

theorem usedIn_eq (registry : Registry) (nodes : List Html.Node) :
    usedIn registry nodes
      = ((Html.nodesClasses nodes).filter registry.contains).eraseDups := by
  rw [usedIn, usedByNodes_eq_foldl, foldl_addUsed]

/-- What is registered in a part of the registry only is used in the same places. -/
theorem usedIn_of_part {part whole : Registry} (h : part.names ⊆ whole.names)
    (nodes : List Html.Node) : usedIn part nodes = (usedIn whole nodes).filter part.contains := by
  rw [usedIn_eq, usedIn_eq, ← eraseDups_filter, List.filter_filter]
  congr 1
  refine List.filter_congr fun word _ => ?_
  cases hword : part.contains word with
  | false => rfl
  | true => exact (Registry.contains_iff.2 (h (Registry.contains_iff.1 hword))).symm

/-- Which candidates elements use is read off their class words in document order: the registered
words, each where it stands first. So with fewer names registered, a page uses what is left,
whatever parser reads the page. -/
theorem used_exact (registry : Registry) :
    (∀ nodes, usedIn registry nodes
      = ((Html.nodesClasses nodes).filter registry.contains).eraseDups) ∧
    ∀ whole : Registry, registry.names ⊆ whole.names → ∀ parse html,
      used parse registry html = (used parse whole html).filter registry.contains :=
  ⟨usedIn_eq registry, fun _ hpart parse html => usedIn_of_part hpart (parse html)⟩

/-- A page with a template, whose contents come before its children. -/
def templatePage : String :=
  "<body class=page><template class='btn card'><p class=card><p class='mt btn'></template>" ++
    "<p class='new  mt card'>"

/-- A registry of these names. -/
def utilities (names : List String) : Registry :=
  .ofList (names.map fun name => ⟨name, .utils, some ("." ++ name ++ "\x7b\x7d"), none⟩)

theorem used_exact_templatePage :
    usedIn (utilities ["mt", "card", "btn", "gap"]) (Html.parse templatePage)
      = ["btn", "card", "mt"] ∧
    used Html.parse (utilities ["mt", "btn"]) templatePage = ["btn", "mt"] := by
  have hwords : Html.nodesClasses (Html.parse templatePage)
      = ["page", "btn", "card", "card", "mt", "btn", "new", "mt", "card"] := by decide +kernel
  have hwhole : usedIn (utilities ["mt", "card", "btn", "gap"]) (Html.parse templatePage)
      = ["btn", "card", "mt"] := by
    rw [(used_exact _).1, hwords]
    decide +kernel
  refine ⟨hwhole, ?_⟩
  rw [(used_exact _).2 (utilities ["mt", "card", "btn", "gap"]) (by decide), used, hwhole]
  decide +kernel

end Candidate

end SiteCompiler
