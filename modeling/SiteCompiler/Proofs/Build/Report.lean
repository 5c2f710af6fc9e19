import SiteCompiler.Build.Report
import SiteCompiler.Proofs.Candidate.History
import SiteCompiler.Proofs.Text.ByteOrder
import Mathlib.Algebra.GroupWithZero.Nat
import Mathlib.Data.List.Sort
set_option autoImplicit false

/-! # What a check reports on the registry

The first part of the report on a check is a list of blocks, one for each layer that has candidates:
a heading with their number and a line for each of them. A line tells its candidate, because its
tags begin with the last `[` in it (`name_eq_of_candidateLine`). The blocks put every candidate of
the registry into one place, under its layer and in the order of names (`blocks_partition`), so no
line is missing and none stands there twice.
-/

namespace SiteCompiler.Report

open scoped List

/-! ## Lines -/

/-- The tags of the fragments that a candidate has. -/
def tags (c : Candidate) : String :=
  match c.criticalCss, c.nonCriticalCss with
  | some _, some _ => "[critical, non-critical]"
  | some _, none => "[critical]"
  | none, some _ => "[non-critical]"
  | none, none => "[]"

/-- The line on a candidate. -/
def candidateLine (c : Candidate) : String := "        " ++ c.name ++ " " ++ tags c

/-- The heading of a layer with `n` candidates. -/
def heading (layer : Layer) (n : Nat) : String := "    " ++ layer.name ++ " (" ++ toString n ++ ")"

theorem fragmentTags_eq (c : Candidate) : fragmentTags c = tags c := by
  rw [fragmentTags, tags]
  cases c.criticalCss <;> cases c.nonCriticalCss <;> rfl

theorem tags_eq_bracket (c : Candidate) : ∃ rest, (tags c).toList = '[' :: rest ∧ '[' ∉ rest := by
  rw [tags]
  split
  · exact ⟨"critical, non-critical]".toList, rfl, by decide⟩
  · exact ⟨"critical]".toList, rfl, by decide⟩
  · exact ⟨"non-critical]".toList, rfl, by decide⟩
  · exact ⟨"]".toList, rfl, by decide⟩

/-- What stands in front of the last `a` of a list is determined. -/
theorem eq_of_append_cons_eq {α : Type} {a : α} {x y u v : List α} (hu : a ∉ u) (hv : a ∉ v)
    (h : x ++ a :: u = y ++ a :: v) : x = y := by
  have hends : ∀ {w u v : List α}, a ∉ u → a :: u = w ++ a :: v → w = [] := by
    intro w u v hu h
    cases w with
    | nil => rfl
    | cons b w =>
        refine absurd ?_ hu
        rw [(List.cons.inj h).2]
        exact List.mem_append_right w List.mem_cons_self
  rcases List.append_eq_append_iff.1 h with ⟨w, rfl, hw⟩ | ⟨w, rfl, hw⟩
  · rw [hends hu hw, List.append_nil]
  · rw [hends hv hw, List.append_nil]

/-- The line on a candidate tells its name. -/
theorem name_eq_of_candidateLine {c d : Candidate} (h : candidateLine c = candidateLine d) :
    c.name = d.name := by
  have hsplit : ∀ {e : Candidate} {rest : List Char}, (tags e).toList = '[' :: rest →
      (candidateLine e).toList = ("        " ++ e.name ++ " ").toList ++ '[' :: rest := by
    intro e rest he
    rw [candidateLine, String.toList_append, he]
  obtain ⟨u, hc, hu⟩ := tags_eq_bracket c
  obtain ⟨v, hd, hv⟩ := tags_eq_bracket d
  have hlists := congrArg String.toList h
  rw [hsplit hc, hsplit hd] at hlists
  have hfront := String.toList_inj.1 (eq_of_append_cons_eq hu hv hlists)
  rw [String.append_left_inj, String.append_right_inj] at hfront
  exact hfront

theorem heading_ne_candidateLine (layer : Layer) (n : Nat) (c : Candidate) :
    heading layer n ≠ candidateLine c := by
  intro h
  have hlists := congrArg String.toList h
  cases layer <;> simp [heading, candidateLine, Layer.name] at hlists

/-! ## Blocks -/

/-- A layer with candidates of it. -/
structure Block where
  layer : Layer
  candidates : List Candidate

/-- The lines of a block. -/
def Block.lines (block : Block) : List String :=
  heading block.layer block.candidates.length :: block.candidates.map candidateLine

/-- The lines of blocks, one behind the other. -/
def linesOf (blocks : List Block) : List String := blocks.flatMap Block.lines

/-- The blocks of a registry: the layers that have candidates, each with its own. -/
def blocks (registry : Registry) : List Block :=
  (Layer.all.filter fun layer => !(layerCandidates registry layer).isEmpty).map fun layer =>
    ⟨layer, layerCandidates registry layer⟩

theorem flatMap_filter_of_eq_nil {α β : Type} {p : α → Bool} {f g : α → List β}
    (hpos : ∀ x, p x = true → f x = g x) (hneg : ∀ x, p x = false → g x = []) (xs : List α) :
    (xs.filter p).flatMap f = xs.flatMap g := by
  induction xs with
  | nil => rfl
  | cons x xs ih =>
      rw [List.flatMap_cons, ← ih]
      cases hx : p x with
      | true => rw [List.filter_cons_of_pos hx, List.flatMap_cons, hpos x hx]
      | false => rw [List.filter_cons_of_neg (by simp [hx]), hneg x hx]; rfl

theorem layerLines_eq {registry : Registry} {layer : Layer}
    (h : layerCandidates registry layer ≠ []) :
    layerLines registry layer = Block.lines ⟨layer, layerCandidates registry layer⟩ := by
  rw [layerLines]
  split
  · next hnil => exact absurd hnil h
  · simp only [fragmentTags_eq]
    rfl

theorem linesOf_blocks (registry : Registry) :
    linesOf (blocks registry) = Layer.all.flatMap (layerLines registry) := by
  rw [linesOf, blocks, List.flatMap_map]
  refine flatMap_filter_of_eq_nil (fun layer h => ?_) (fun layer h => ?_) Layer.all
  · exact (layerLines_eq (by simpa using h)).symm
  · rw [layerLines, show layerCandidates registry layer = [] by simpa using h]

theorem empty_notMem_linesOf (blocks : List Block) : "" ∉ linesOf blocks := by
  intro hmem
  obtain ⟨block, -, hline⟩ := List.mem_flatMap.1 hmem
  rcases List.mem_cons.1 hline with hline | hline
  · have hlists := congrArg String.toList hline
    simp [heading] at hlists
  · obtain ⟨c, -, hc⟩ := List.mem_map.1 hline
    have hlists := congrArg String.toList hc
    simp [candidateLine] at hlists

/-- In the lines of blocks, the line on a candidate occurs as often as among their candidates. -/
theorem count_linesOf (blocks : List Block) (c : Candidate) :
    (linesOf blocks).count (candidateLine c)
      = ((blocks.flatMap Block.candidates).map candidateLine).count (candidateLine c) := by
  rw [linesOf, List.map_flatMap, List.count_flatMap, List.count_flatMap]
  congr 1
  refine List.map_congr_left fun block _ => ?_
  exact List.count_cons_of_ne (heading_ne_candidateLine _ _ c)

/-! ## Each candidate in one block -/

/-- Candidates that are taken layer by layer are the candidates of these layers. -/
theorem perm_flatMap_filter (cs : List Candidate) {layers : List Layer} (hnodup : layers.Nodup) :
    (layers.flatMap fun layer => cs.filter fun c => c.layer == layer).Perm
      (cs.filter fun c => c.layer ∈ layers) := by
  induction layers with
  | nil => simp
  | cons layer layers ih =>
      -- The first layer takes its candidates, and the other layers share those that are left.
      obtain ⟨hlayer, hlayers⟩ := List.nodup_cons.1 hnodup
      have hfirst : (cs.filter fun c => c.layer ∈ layer :: layers).filter
          (fun c => c.layer == layer) = cs.filter fun c => c.layer == layer := by
        rw [List.filter_filter]
        refine List.filter_congr fun c _ => ?_
        by_cases hc : c.layer = layer <;> simp [hc]
      have hothers : (cs.filter fun c => c.layer ∈ layer :: layers).filter
          (fun c => !(c.layer == layer)) = cs.filter fun c => c.layer ∈ layers := by
        rw [List.filter_filter]
        refine List.filter_congr fun c _ => ?_
        by_cases hc : c.layer = layer
        · simp [hc, hlayer]
        · simp [hc]
      calc ((layer :: layers).flatMap fun layer => cs.filter fun c => c.layer == layer)
          = (cs.filter fun c => c.layer == layer)
            ++ layers.flatMap fun layer => cs.filter fun c => c.layer == layer := List.flatMap_cons
        _ ~ (cs.filter fun c => c.layer == layer) ++ cs.filter fun c => c.layer ∈ layers :=
            (ih hlayers).append_left _
        _ = _ := by rw [← hfirst, ← hothers]
        _ ~ cs.filter fun c => c.layer ∈ layer :: layers := List.filter_append_perm _ _

theorem perm_layerCandidates (registry : Registry) (layer : Layer) :
    (layerCandidates registry layer).Perm (registry.candidates.filter fun c => c.layer == layer) :=
  List.mergeSort_perm _ _

theorem perm_flatMap_blocks (registry : Registry) :
    ((blocks registry).flatMap Block.candidates).Perm registry.candidates := by
  have hall : (registry.candidates.filter fun c => c.layer ∈ Layer.all) = registry.candidates :=
    List.filter_eq_self.2 fun c _ => decide_eq_true (Layer.mem_all c.layer)
  have hblocks : (blocks registry).flatMap Block.candidates
      = Layer.all.flatMap (layerCandidates registry) := by
    rw [blocks, List.flatMap_map]
    exact flatMap_filter_of_eq_nil (fun _ _ => rfl) (fun _ h => by simpa using h) Layer.all
  calc (blocks registry).flatMap Block.candidates
      = Layer.all.flatMap (layerCandidates registry) := hblocks
    _ ~ Layer.all.flatMap fun layer => registry.candidates.filter fun c => c.layer == layer :=
        List.Perm.flatMap_left _ fun layer _ => perm_layerCandidates registry layer
    _ ~ registry.candidates.filter fun c => c.layer ∈ Layer.all :=
        perm_flatMap_filter registry.candidates (by decide)
    _ = registry.candidates := hall

/-- Names do not repeat, so sorting puts them in strict order. -/
theorem pairwise_layerCandidates {registry : Registry} (hnodup : registry.names.Nodup)
    (layer : Layer) : (layerCandidates registry layer).Pairwise
      fun a b => Text.bytes a.name < Text.bytes b.name := by
  have hle : (layerCandidates registry layer).Pairwise fun a b => a.name ≤ b.name := by
    have hsorted := List.pairwise_mergeSort' (fun a b : Candidate => a.name ≤ b.name)
      (registry.candidates.filter fun c => c.layer == layer)
    exact hsorted
  have hne : (layerCandidates registry layer).Pairwise fun a b => a.name ≠ b.name := by
    have hall : registry.candidates.Pairwise fun a b => a.name ≠ b.name :=
      List.pairwise_map.1 hnodup
    exact (perm_layerCandidates registry layer).symm.pairwise (hall.filter _) fun h => h.symm
  refine (hle.and hne).imp fun h => ?_
  rw [Text.bytes_lt_bytes_iff]
  exact Std.lt_of_le_of_ne h.1 h.2

/-- Candidates with different names have different lines. -/
theorem nodup_candidateLines {registry : Registry} (hnodup : registry.names.Nodup) :
    (registry.candidates.map candidateLine).Nodup := by
  have hnames : registry.candidates.Pairwise fun a b => a.name ≠ b.name :=
    List.pairwise_map.1 hnodup
  exact List.pairwise_map.2 (hnames.imp fun hne heq => hne (name_eq_of_candidateLine heq))

/-- Blocks that put every candidate of a registry into one place. -/
structure Partition (registry : Registry) (blocks : List Block) : Prop where
  /-- There is a block for each layer that has candidates, in cascade order. -/
  layers_eq : blocks.map Block.layer
    = Layer.all.filter fun layer => ∃ c ∈ registry.candidates, c.layer = layer
  layer_eq : ∀ block ∈ blocks, ∀ c ∈ block.candidates, c.layer = block.layer
  sorted : ∀ block ∈ blocks,
    block.candidates.Pairwise fun a b => Text.bytes a.name < Text.bytes b.name
  perm : (blocks.flatMap Block.candidates).Perm registry.candidates
  /-- The line on a candidate stands in one place. -/
  count_eq : ∀ c ∈ registry.candidates, (linesOf blocks).count (candidateLine c) = 1

theorem blocks_partition {registry : Registry} (hnodup : registry.names.Nodup) :
    Partition registry (blocks registry) where
  layers_eq := by
    have hid : (Block.layer ∘ fun layer => Block.mk layer (layerCandidates registry layer)) = id :=
      rfl
    rw [blocks, List.map_map, hid, List.map_id]
    refine List.filter_congr fun layer _ => ?_
    rw [Bool.eq_iff_iff, decide_eq_true_iff, Bool.not_eq_true',
      List.isEmpty_eq_false_iff_exists_mem]
    refine exists_congr fun c => ?_
    rw [(perm_layerCandidates registry layer).mem_iff, List.mem_filter, beq_iff_eq]
  layer_eq := by
    intro block hblock c hc
    obtain ⟨layer, -, rfl⟩ := List.mem_map.1 hblock
    simpa using (List.mem_filter.1 ((perm_layerCandidates registry layer).mem_iff.1 hc)).2
  sorted := by
    intro block hblock
    obtain ⟨layer, -, rfl⟩ := List.mem_map.1 hblock
    exact pairwise_layerCandidates hnodup layer
  perm := perm_flatMap_blocks registry
  count_eq := by
    intro c hc
    -- A heading is no line on a candidate, so only the lines below the headings count.
    rw [count_linesOf, ((perm_flatMap_blocks registry).map candidateLine).count_eq]
    exact List.count_eq_one_of_mem (nodup_candidateLines hnodup) (List.mem_map_of_mem hc)

theorem check_eq (registry : Registry) (result : BuildResult) : ∃ rest,
    check registry result = "Candidates" :: linesOf (blocks registry) ++ "" :: rest := by
  rw [linesOf_blocks, check, List.append_assoc, List.append_assoc]
  exact ⟨_, rfl⟩

theorem getLast?_check (registry : Registry) (result : BuildResult) :
    (check registry result).getLast? = some ("Checked " ++ count result.pages.length "page" "pages"
      ++ ", " ++ count registry.size "candidate" "candidates") := by
  rw [check, List.getLast?_append_of_ne_nil _ (List.cons_ne_nil _ _)]
  rfl

/-- **The report on a check partitions the registry.** Between the first line and the first empty
one it has the lines of blocks that put every candidate into one place, and the numbers in their
headings add up to that in the last line. -/
theorem check_partition (cs : List Candidate) (result : BuildResult) :
    ∃ blocks rest,
      check (Registry.ofList cs) result = "Candidates" :: linesOf blocks ++ "" :: rest ∧
      "" ∉ linesOf blocks ∧ Partition (Registry.ofList cs) blocks ∧
      (check (Registry.ofList cs) result).getLast?
        = some ("Checked " ++ count result.pages.length "page" "pages" ++ ", "
          ++ count (blocks.map fun block => block.candidates.length).sum "candidate"
            "candidates") := by
  have hsize : ((blocks (Registry.ofList cs)).map fun block => block.candidates.length).sum
      = (Registry.ofList cs).size := by
    rw [← List.length_flatMap, (perm_flatMap_blocks (Registry.ofList cs)).length_eq]
    rfl
  obtain ⟨rest, hcheck⟩ := check_eq (Registry.ofList cs) result
  refine ⟨blocks (Registry.ofList cs), rest, hcheck, empty_notMem_linesOf _,
    blocks_partition (Registry.nodup_names_ofList cs), ?_⟩
  rw [hsize]
  exact getLast?_check (Registry.ofList cs) result

/-- Two layers, one of which a later definition has left. -/
example : linesOf (blocks (Registry.ofList [⟨"b", .utils, some "x", none⟩,
    ⟨"a", .utils, none, none⟩, ⟨"b", .global, none, some "y"⟩])) =
    ["    global (1)", "        b [non-critical]", "    utils (1)", "        a []"] := by
  decide +kernel

end SiteCompiler.Report
