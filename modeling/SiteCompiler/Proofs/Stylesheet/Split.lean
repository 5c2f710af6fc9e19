import SiteCompiler.Stylesheet.Collect
import SiteCompiler.Proofs.Candidate.Registry
set_option autoImplicit false

/-! # The split, chunk by chunk

The collected CSS of a page is given by layer, and a layer may be missing. A split goes through the
critical chunks one by one and puts each on the side where it belongs, and then adds the other
chunks to the side that is not critical; on both sides all layers are there from the start
(`splitInOrder`). What each layer then holds is what `CollectedCss.split` says (`splitInOrder_eq`).

It is a partition that keeps the order. A critical chunk stays critical exactly if the first
candidate that has its text as critical fragment in its layer is used above the fold
(`BelongsAbove`), and if more is used above the fold, chunks only move to the critical side
(`splitInOrder_partition`).
-/

namespace SiteCompiler

/-! ## Maps of layers -/

/-- CSS texts by layer, where a layer may be missing. -/
abbrev LayerMap := Layer → Option (List String)

namespace LayerMap

/-- The map in which all layers are present. -/
def ofChunks (chunks : Chunks) : LayerMap := fun layer => some (chunks layer)

/-- The texts of each layer; a missing one has none. -/
def texts (map : LayerMap) : Chunks := fun layer => (map layer).getD []

/-- The layers of a list that are present, with their texts. -/
def entriesAt (map : LayerMap) (layers : List Layer) : List (Layer × List String) :=
  layers.filterMap fun layer => (map layer).map fun texts => (layer, texts)

/-- The layers that are present, in cascade order, with their texts. -/
def entries (map : LayerMap) : List (Layer × List String) := map.entriesAt Layer.all

/-- Appends texts to those of a layer, which is added if it is missing. -/
def extend (map : LayerMap) (layer : Layer) (more : List String) : LayerMap := fun other =>
  if other = layer then some (map.texts layer ++ more) else map other

theorem extend_ofChunks (chunks : Chunks) (layer : Layer) (more : List String) :
    (ofChunks chunks).extend layer more
      = ofChunks fun other => if other = layer then chunks other ++ more else chunks other := by
  funext other
  by_cases h : other = layer
  · simp [extend, ofChunks, texts, h]
  · simp [extend, ofChunks, h]

theorem extend_extend (map : LayerMap) (layer : Layer) (as bs : List String) :
    (map.extend layer as).extend layer bs = map.extend layer (as ++ bs) := by
  funext other
  by_cases h : other = layer
  · simp [extend, texts, h]
  · simp [extend, h]

/-- Extends a map by what is made of the texts of each layer of another. Missing layers are to give
nothing. -/
theorem foldl_extend_entriesAt (map : LayerMap) {pick : Layer → List String → List String}
    (hpick : ∀ layer, pick layer [] = []) {layers : List Layer} (hlayers : layers.Nodup)
    (chunks : Chunks) :
    (map.entriesAt layers).foldl (fun m entry => m.extend entry.1 (pick entry.1 entry.2))
        (ofChunks chunks)
      = ofChunks fun layer =>
          if layer ∈ layers then chunks layer ++ pick layer (map.texts layer)
          else chunks layer := by
  -- By induction on the layers, for every map that they are added to.
  induction layers generalizing chunks with
  | nil => simp [entriesAt]
  | cons first layers ih =>
      obtain ⟨hfirst, hlayers⟩ := List.nodup_cons.1 hlayers
      cases hmap : map first with
      | none =>
          have hentries : map.entriesAt (first :: layers) = map.entriesAt layers :=
            List.filterMap_cons_none (by rw [hmap]; rfl)
          rw [hentries, ih hlayers]
          congr 1
          funext layer
          by_cases h : layer = first
          · simp [h, hfirst, texts, hmap, hpick]
          · simp [h]
      | some given =>
          have hentries : map.entriesAt (first :: layers)
              = (first, given) :: map.entriesAt layers :=
            List.filterMap_cons_some (by rw [hmap]; rfl)
          rw [hentries, List.foldl_cons, extend_ofChunks, ih hlayers]
          congr 1
          funext layer
          by_cases h : layer = first
          · simp [h, hfirst, texts, hmap]
          · simp [h]

theorem foldl_extend_entries (map : LayerMap) (pick : Layer → List String → List String)
    (hpick : ∀ layer, pick layer [] = []) (chunks : Chunks) :
    map.entries.foldl (fun m entry => m.extend entry.1 (pick entry.1 entry.2)) (ofChunks chunks)
      = ofChunks fun layer => chunks layer ++ pick layer (map.texts layer) := by
  rw [entries, map.foldl_extend_entriesAt hpick (by decide)]
  congr 1
  funext layer
  rw [if_pos layer.mem_all]

end LayerMap

namespace CollectedCss

open LayerMap

/-! ## The split as a walk -/

section Walk

variable (registry : Registry) (aboveTheFold : List String)

/-- Puts a chunk of a layer on the side where it belongs. What is critical is on the first side. -/
def place (layer : Layer) (sides : LayerMap × LayerMap) (chunk : String) : LayerMap × LayerMap :=
  if staysCritical registry aboveTheFold layer chunk then (sides.1.extend layer [chunk], sides.2)
  else (sides.1, sides.2.extend layer [chunk])

/-- Goes through the critical chunks of all layers and then through the others. -/
def splitInOrder (critical nonCritical : LayerMap) : LayerMap × LayerMap :=
  let placed := critical.entries.foldl
    (fun sides entry => entry.2.foldl (place registry aboveTheFold entry.1) sides)
    (ofChunks fun _ => [], ofChunks fun _ => [])
  (placed.1, nonCritical.entries.foldl (fun map entry => map.extend entry.1 entry.2) placed.2)

/-- The chunks of one layer are divided between the two sides. -/
theorem foldl_place (layer : Layer) (chunks : List String) (critical nonCritical : Chunks) :
    chunks.foldl (place registry aboveTheFold layer) (ofChunks critical, ofChunks nonCritical)
      = ((ofChunks critical).extend layer
            (chunks.filter (staysCritical registry aboveTheFold layer)),
          (ofChunks nonCritical).extend layer
            (chunks.filter fun chunk => !staysCritical registry aboveTheFold layer chunk)) := by
  induction chunks generalizing critical nonCritical with
  | nil => simp [extend_ofChunks]
  | cons chunk chunks ih =>
      cases hstays : staysCritical registry aboveTheFold layer chunk with
      | true =>
          rw [List.foldl_cons, place, if_pos hstays, extend_ofChunks, ih, ← extend_ofChunks,
            extend_extend]
          simp [hstays]
      | false =>
          rw [List.foldl_cons, place, if_neg (by simp [hstays]), extend_ofChunks, ih,
            ← extend_ofChunks, extend_extend]
          simp [hstays]

/-- The chunks of all layers are divided, layer by layer. -/
theorem foldl_place_entries (entries : List (Layer × List String)) (critical nonCritical : Chunks) :
    entries.foldl (fun sides entry => entry.2.foldl (place registry aboveTheFold entry.1) sides)
        (ofChunks critical, ofChunks nonCritical)
      = (entries.foldl (fun map entry => map.extend entry.1
            (entry.2.filter (staysCritical registry aboveTheFold entry.1))) (ofChunks critical),
          entries.foldl (fun map entry => map.extend entry.1
            (entry.2.filter fun chunk => !staysCritical registry aboveTheFold entry.1 chunk))
              (ofChunks nonCritical)) := by
  induction entries generalizing critical nonCritical with
  | nil => rfl
  | cons entry entries ih =>
      simp only [List.foldl_cons, foldl_place, extend_ofChunks, ih]

/-- **A split in order**: all layers are there, and hold what the split gives. -/
theorem splitInOrder_eq (critical nonCritical : LayerMap) :
    splitInOrder registry aboveTheFold critical nonCritical
      = (ofChunks (split registry aboveTheFold ⟨critical.texts, nonCritical.texts⟩).critical,
          ofChunks (split registry aboveTheFold ⟨critical.texts, nonCritical.texts⟩).nonCritical) := by
  have hkept := critical.foldl_extend_entries
    (fun layer => List.filter (staysCritical registry aboveTheFold layer))
    (fun _ => rfl) fun _ => []
  have hmoved := critical.foldl_extend_entries
    (fun layer => List.filter fun chunk => !staysCritical registry aboveTheFold layer chunk)
    (fun _ => rfl) fun _ => []
  have hadded := nonCritical.foldl_extend_entries (fun _ texts => texts) fun _ => rfl
  simp only [List.nil_append] at hkept hmoved
  rw [splitInOrder, foldl_place_entries, hkept, hmoved, hadded]
  rfl

end Walk

/-! ## Where a chunk belongs -/

section Owner

variable {registry : Registry} {aboveTheFold more : List String} {layer : Layer} {chunk : String}

/-- The owner of a chunk is used above the fold. -/
def BelongsAbove (registry : Registry) (aboveTheFold : List String) (layer : Layer)
    (chunk : String) : Prop :=
  ∃ c, registry.Owns layer chunk c ∧ c.name ∈ aboveTheFold

theorem staysCritical_iff :
    staysCritical registry aboveTheFold layer chunk = true
      ↔ BelongsAbove registry aboveTheFold layer chunk := by
  have howner : staysCritical registry aboveTheFold layer chunk = true
      ↔ ∃ name, registry.criticalOwner? layer chunk = some name ∧ name ∈ aboveTheFold := by
    rw [staysCritical]
    cases registry.criticalOwner? layer chunk <;> simp
  rw [howner, BelongsAbove]
  simp only [Registry.criticalOwner?_eq_some_iff]
  constructor
  · rintro ⟨name, ⟨c, hc, rfl⟩, hmem⟩
    exact ⟨c, hc, hmem⟩
  · rintro ⟨c, hc, hmem⟩
    exact ⟨c.name, ⟨c, hc, rfl⟩, hmem⟩

instance : Decidable (BelongsAbove registry aboveTheFold layer chunk) :=
  decidable_of_iff _ staysCritical_iff

theorem BelongsAbove.mono (h : BelongsAbove registry aboveTheFold layer chunk)
    (hmore : aboveTheFold ⊆ more) : BelongsAbove registry more layer chunk := by
  obtain ⟨c, hc, hmem⟩ := h
  exact ⟨c, hc, hmore hmem⟩

end Owner

/-- Where a test lets more pass, what passes in addition is what does no longer fail. -/
theorem exists_moved {α : Type} {p q : α → Bool} (h : ∀ a, p a = true → q a = true)
    (xs : List α) : ∃ moved, (xs.filter q).Perm (xs.filter p ++ moved) ∧
      (xs.filter fun a => !p a).Perm (moved ++ xs.filter fun a => !q a) := by
  -- What moves is what only the second test lets pass.
  refine ⟨xs.filter fun a => !p a && q a, ?_, ?_⟩
  · have hp : (xs.filter q).filter p = xs.filter p := by
      rw [List.filter_filter]
      refine List.filter_congr fun a _ => ?_
      cases hpa : p a
      · rfl
      · simp [h a hpa]
    have hperm := List.filter_append_perm p (xs.filter q)
    rw [hp, List.filter_filter] at hperm
    exact hperm.symm
  · have hq : (xs.filter fun a => !p a).filter (fun a => !q a) = xs.filter fun a => !q a := by
      rw [List.filter_filter]
      refine List.filter_congr fun a _ => ?_
      cases hpa : p a
      · simp
      · simp [h a hpa]
    have hperm := List.filter_append_perm q (xs.filter fun a => !p a)
    rw [hq, List.filter_filter] at hperm
    simpa [Bool.and_comm] using hperm.symm

/-! ## The partition -/

theorem split_critical_eq (registry : Registry) (aboveTheFold : List String) (css : CollectedCss)
    (layer : Layer) : (css.split registry aboveTheFold).critical layer
      = (css.critical layer).filter fun chunk =>
          BelongsAbove registry aboveTheFold layer chunk := by
  refine List.filter_congr fun chunk _ => ?_
  rw [Bool.eq_iff_iff, staysCritical_iff, decide_eq_true_iff]

theorem split_nonCritical_eq (registry : Registry) (aboveTheFold : List String)
    (css : CollectedCss) (layer : Layer) : (css.split registry aboveTheFold).nonCritical layer
      = ((css.critical layer).filter fun chunk =>
          ¬ BelongsAbove registry aboveTheFold layer chunk) ++ css.nonCritical layer := by
  refine congrArg (· ++ css.nonCritical layer) (List.filter_congr fun chunk _ => ?_)
  rw [Bool.eq_iff_iff, decide_eq_true_iff, ← staysCritical_iff, Bool.not_eq_true',
    Bool.not_eq_true]

/-- What belongs above the fold of a page also does where more is above the fold. -/
theorem split_mono (registry : Registry) {aboveTheFold more : List String}
    (hmore : aboveTheFold ⊆ more) (css : CollectedCss) (layer : Layer) :
    ((css.split registry aboveTheFold).critical layer).Sublist
        ((css.split registry more).critical layer) ∧
    ((css.split registry more).nonCritical layer).Sublist
        ((css.split registry aboveTheFold).nonCritical layer) ∧
    ∃ moved,
      ((css.split registry more).critical layer).Perm
        ((css.split registry aboveTheFold).critical layer ++ moved) ∧
      ((css.split registry aboveTheFold).nonCritical layer).Perm
        (moved ++ (css.split registry more).nonCritical layer) := by
  have hmono : ∀ chunk, decide (BelongsAbove registry aboveTheFold layer chunk) = true →
      decide (BelongsAbove registry more layer chunk) = true := by
    intro chunk h
    exact decide_eq_true (of_decide_eq_true h |>.mono hmore)
  obtain ⟨moved, hcritical, hdemoted⟩ := exists_moved hmono (css.critical layer)
  simp only [split_critical_eq, split_nonCritical_eq, decide_not]
  refine ⟨List.monotone_filter_right _ hmono, ?_, moved, hcritical, ?_⟩
  · refine (List.monotone_filter_right _ fun chunk h => ?_).append_right _
    rw [Bool.not_eq_true'] at h ⊢
    rw [Bool.eq_false_iff] at h ⊢
    exact fun habove => h (hmono chunk habove)
  · rw [← List.append_assoc]
    exact hdemoted.append_right _

/-- **The split is a partition that keeps the order.** Whatever layers are given, a split goes
through them to two lists for every layer: the critical chunks whose owner is used above the fold,
and the other critical chunks in front of the chunks that are not critical. No chunk is lost and
none is added, and if more is used above the fold, chunks only move to the critical side. -/
theorem splitInOrder_partition (registry : Registry) (aboveTheFold : List String)
    (critical nonCritical : LayerMap) (layer : Layer) :
    ∃ kept rest,
      (splitInOrder registry aboveTheFold critical nonCritical).1 layer = some kept ∧
      (splitInOrder registry aboveTheFold critical nonCritical).2 layer = some rest ∧
      (split registry aboveTheFold ⟨critical.texts, nonCritical.texts⟩).critical layer = kept ∧
      (split registry aboveTheFold ⟨critical.texts, nonCritical.texts⟩).nonCritical layer = rest ∧
      kept = (critical.texts layer).filter
        (fun chunk => BelongsAbove registry aboveTheFold layer chunk) ∧
      rest = (critical.texts layer).filter
          (fun chunk => ¬ BelongsAbove registry aboveTheFold layer chunk)
        ++ nonCritical.texts layer ∧
      (kept ++ rest).Perm (critical.texts layer ++ nonCritical.texts layer) ∧
      ∀ more, aboveTheFold ⊆ more → ∃ kept' rest' moved,
        (splitInOrder registry more critical nonCritical).1 layer = some kept' ∧
        (splitInOrder registry more critical nonCritical).2 layer = some rest' ∧
        kept.Sublist kept' ∧ rest'.Sublist rest ∧
        kept'.Perm (kept ++ moved) ∧ rest.Perm (moved ++ rest') := by
  refine ⟨_, _, ?_, ?_, rfl, rfl, split_critical_eq .., split_nonCritical_eq .., split_perm ..,
    fun more hmore => ?_⟩
  · rw [splitInOrder_eq]
    rfl
  · rw [splitInOrder_eq]
    rfl
  · obtain ⟨hkept, hrest, moved, hkeptPerm, hrestPerm⟩ :=
      split_mono registry hmore ⟨critical.texts, nonCritical.texts⟩ layer
    refine ⟨_, _, moved, ?_, ?_, hkept, hrest, hkeptPerm, hrestPerm⟩
    · rw [splitInOrder_eq]
      rfl
    · rw [splitInOrder_eq]
      rfl

/-- Two candidates of a layer with one critical text, and a third with that text elsewhere. -/
def sharedText : Registry :=
  .ofList [⟨"a", .utils, some "x", none⟩, ⟨"b", .utils, some "x", none⟩,
    ⟨"c", .layout, some "x", none⟩]

/-- A text that is repeated and one without an owner, in the only layer that is given. -/
def utilsOnly : LayerMap
  | .utils => some ["x", "z", "x"]
  | _ => none

/-- The shared text is the first candidate's: that the second is above the fold does not keep it
critical. With the first above the fold, both copies move. -/
theorem splitInOrder_partition_sharedText :
    (splitInOrder sharedText ["b"] utilsOnly fun _ => none).1 .utils = some [] ∧
    (splitInOrder sharedText ["b"] utilsOnly fun _ => none).2 .utils = some ["x", "z", "x"] ∧
    (splitInOrder sharedText ["b"] utilsOnly fun _ => none).1 .layout = some [] ∧
    (splitInOrder sharedText ["b", "a"] utilsOnly fun _ => none).1 .utils = some ["x", "x"] ∧
    ∃ moved, ["x", "x"].Perm ([] ++ moved) ∧ ["x", "z", "x"].Perm (moved ++ ["z"]) := by
  obtain ⟨kept, rest, hkept, hrest, -, -, -, -, -, hmore⟩ :=
    splitInOrder_partition sharedText ["b"] utilsOnly (fun _ => none) .utils
  obtain ⟨kept', rest', moved, hkept', hrest', -, -, hkeptPerm, hrestPerm⟩ :=
    hmore ["b", "a"] (by decide)
  have hvalues : kept = [] ∧ rest = ["x", "z", "x"] ∧ kept' = ["x", "x"] ∧ rest' = ["z"] := by
    refine ⟨Option.some.inj (hkept.symm.trans ?_), Option.some.inj (hrest.symm.trans ?_),
      Option.some.inj (hkept'.symm.trans ?_), Option.some.inj (hrest'.symm.trans ?_)⟩
    all_goals decide
  obtain ⟨rfl, rfl, rfl, rfl⟩ := hvalues
  exact ⟨hkept, hrest, by decide, hkept', moved, hkeptPerm, hrestPerm⟩

end CollectedCss

end SiteCompiler
