import SiteCompiler.Proofs.FileTree.Walk
import SiteCompiler.Proofs.Template.Expansion
import Mathlib.Data.Finset.Card
set_option autoImplicit false

/-! # How deep an expansion goes

Every level of an expansion adds a name to the chain that is not in it yet, and all these names
occur in the document or in a file of the tree. So there are never more levels than there are such
names, and one more for the document itself (`expandWithin_ne_tooDeep`). Each name takes up
characters, which is why the depth that `compile` starts with is enough (`compile_eq`).
-/

namespace SiteCompiler

/-- The text of a file, if it is text. -/
def Entry.text? : Entry → Option String
  | .file bytes => String.fromUTF8? bytes
  | _ => none

/-- The texts of the files of a tree. -/
def FileTree.texts (tree : FileTree) : List String :=
  tree.entries.filterMap fun e => if tree.entry? e.1 = some e.2 then e.2.text? else none

theorem FileTree.mem_texts_of_readText {tree : FileTree} {path : Path} {text : String}
    (h : tree.readText path = .ok text) : text ∈ tree.texts := by
  obtain ⟨loc, bytes, -, hentry, htext⟩ := readText_eq_ok_iff.1 h
  have hne : loc ≠ [] := by
    rintro rfl
    simp [FileTree.entry?] at hentry
  have hlookup : tree.entries.lookup loc = some (.file bytes) := by
    rwa [FileTree.entry?, if_neg hne] at hentry
  obtain ⟨before, after, hentries, -⟩ := List.lookup_eq_some_iff.1 hlookup
  refine List.mem_filterMap.2 ⟨(loc, .file bytes), ?_, ?_⟩
  · rw [hentries]
    simp
  · rw [if_pos hentry]
    exact htext

theorem length_toList_le_utf8ByteSize (s : String) : s.toList.length ≤ s.utf8ByteSize := by
  induction s using String.push_induction with
  | empty => simp
  | push s c ih =>
      have hc := Char.utf8Size_pos c
      rw [String.toList_push, String.utf8ByteSize_push, List.length_append, List.length_singleton]
      omega

theorem Entry.utf8ByteSize_le_size {entry : Entry} {text : String} (h : entry.text? = some text) :
    text.utf8ByteSize ≤ entry.size := by
  cases entry with
  | file bytes =>
      simp only [Entry.text?, String.fromUTF8?] at h
      split at h
      · cases h
        exact Nat.le_refl _
      · cases h
  | link target => cases h
  | directory => cases h

/-- The number of bytes in texts together. -/
def textBytes (texts : List String) : Nat :=
  texts.foldr (fun text total => text.utf8ByteSize + total) 0

/-- The texts of a tree have no more bytes than its files. -/
theorem FileTree.textBytes_le (tree : FileTree) : textBytes tree.texts ≤ tree.totalBytes := by
  unfold FileTree.texts FileTree.totalBytes
  generalize tree.entry? = entry?
  induction tree.entries with
  | nil => exact Nat.le_refl 0
  | cons e entries ih =>
      rw [List.foldr_cons, List.filterMap_cons]
      split
      · exact Nat.le_trans ih (Nat.le_add_left _ _)
      · next text htext =>
          have hsize : text.utf8ByteSize ≤ e.2.size := by
            split at htext
            · exact Entry.utf8ByteSize_le_size htext
            · cases htext
          rw [textBytes, List.foldr_cons]
          exact Nat.add_le_add hsize ih

namespace Template

open Component

/-- The names of the components that occur in a document, nested ones included. -/
def componentNames (html : String) : List String :=
  (extractComponents html).map ComponentRef.componentName

/-- The component names that occur in a document or in a file of the tree. -/
def namesWithin (tree : FileTree) (html : String) : Finset String :=
  ((html :: tree.texts).flatMap componentNames).toFinset

/-! ## There are no more names than characters -/

theorem length_filterMap_le_sources (pieces : List Piece) :
    (pieces.filterMap Piece.componentTag?).length ≤ (sources pieces).length := by
  induction pieces with
  | nil => simp
  | cons piece pieces ih =>
      rw [List.filterMap_cons, sources_cons, List.length_append]
      split
      · omega
      · next t ht =>
          have hsource : 0 < piece.source.length := by
            rw [(source_of_componentTag? ht).1]
            simp [Piece.source, Tag.source]
          rw [List.length_cons]
          omega

theorem length_componentNames_le (html : String) :
    (componentNames html).length ≤ html.utf8ByteSize := by
  have htags := length_filterMap_le_sources (scan html.toList)
  rw [sources_scan] at htags
  have hrefs : (extractComponents html).length
      = ((scan html.toList).filterMap Piece.componentTag?).length := by
    rw [extractComponents, ← List.map_filterMap, List.length_map]
  rw [componentNames, List.length_map, hrefs]
  exact Nat.le_trans htags (length_toList_le_utf8ByteSize html)

theorem card_namesWithin_lt (tree : FileTree) (html : String) :
    (namesWithin tree html).card < depthBound tree html := by
  have htexts : ∀ texts : List String,
      (texts.flatMap componentNames).length ≤ textBytes texts := by
    intro texts
    induction texts with
    | nil => exact Nat.le_refl 0
    | cons text texts ih =>
        rw [List.flatMap_cons, List.length_append, textBytes, List.foldr_cons]
        exact Nat.add_le_add (length_componentNames_le text) ih
  calc (namesWithin tree html).card
      ≤ ((html :: tree.texts).flatMap componentNames).length := List.toFinset_card_le _
    _ ≤ textBytes (html :: tree.texts) := htexts _
    _ = html.utf8ByteSize + textBytes tree.texts := rfl
    _ ≤ html.utf8ByteSize + tree.totalBytes := Nat.add_le_add_left tree.textBytes_le _
    _ < depthBound tree html := Nat.lt_succ_self _

/-! ## Every level adds a name -/

variable {tree : FileTree} {templatesDir : Path}

/-- The components between whose segments a document is cut are among those that occur in it. -/
theorem mem_extractComponents {html : String} {ref : ComponentRef} {source : List Char}
    (h : .component ref source ∈ segments html) : ref ∈ extractComponents html := by
  have hpieces : ∀ pieces : List Piece, Segment.component ref source ∈ segmentsOf pieces →
      ref ∈ componentsOf pieces := by
    intro pieces
    induction pieces using segmentsOf_induction with
    | nil => simp [segmentsOf]
    | other piece pieces hnone ih =>
        intro hmem
        rw [segmentsOf_cons_of_none hnone] at hmem
        simp only [List.mem_cons, reduceCtorEq, false_or] at hmem
        rw [componentsOf_cons_of_none hnone]
        exact ih hmem
    | component t pieces ht ih =>
        intro hmem
        rw [segmentsOf_cons_of_some ht] at hmem
        simp only [List.mem_cons, Segment.component.injEq] at hmem
        rw [componentsOf_cons_of_some ht]
        rcases hmem with ⟨rfl, -⟩ | hmem
        · exact List.mem_cons_self
        · refine List.mem_cons_of_mem _ ?_
          rw [← append_elementPieces t pieces, componentsOf_append]
          exact List.mem_append_right _ (ih hmem)
  exact hpieces _ h

theorem load_mem_texts {ref : ComponentRef} {template : String}
    (h : load tree templatesDir ref = .ok template) : template ∈ tree.texts := by
  unfold load at h
  split at h
  · cases h
  · next path _ =>
      split at h
      · cases h
      · next text hread =>
          cases h
          exact FileTree.mem_texts_of_readText hread

/-- Below a chain of different names from a set, no more levels follow than the set has names left,
and the level of the document itself. -/
theorem expandWithin_ne_tooDeep {names : Finset String}
    (htexts : ∀ text ∈ tree.texts, ∀ name ∈ componentNames text, name ∈ names) {depth : Nat}
    {chain : List String} {html : String} (hhtml : ∀ name ∈ componentNames html, name ∈ names)
    (hnodup : chain.Nodup) (hchain : ∀ name ∈ chain, name ∈ names)
    (hdepth : names.card < chain.length + depth) :
    expandWithin tree templatesDir depth chain html ≠ .error .tooDeep := by
  induction depth generalizing chain html with
  | zero =>
      -- The chain would have more different names than there are.
      have hsubset : chain.toFinset ⊆ names := fun name h => hchain name (List.mem_toFinset.1 h)
      have hcard := Finset.card_le_card hsubset
      rw [List.toFinset_card_of_nodup hnodup] at hcard
      omega
  | succ depth ih =>
      intro h
      rw [expandWithin_succ] at h
      obtain ⟨before, ref, source, after, parts, hsegments, -, h⟩ := fillDocument_eq_error h
      rcases h with henter | ⟨henter, hload | ⟨template, hload, hexpand⟩⟩
      · obtain ⟨-, he⟩ := enterUnlessIn_eq_error_iff.1 henter
        cases he
      · rcases load_eq_error hload with ⟨reason, he⟩ | ⟨path, reason, he⟩ <;> cases he
      · -- Only a template on the level below can be too deep, and its chain has a new name.
        have hmem : Segment.component ref source ∈ segments html := by
          rw [hsegments]
          exact List.mem_append_right _ List.mem_cons_self
        have hname : ref.componentName ∈ names :=
          hhtml _ (List.mem_map_of_mem (mem_extractComponents hmem))
        refine ih (htexts template (load_mem_texts hload)) (nodup_append_of_enters hnodup henter)
          ?_ ?_ hexpand
        · intro name hmem
          rcases List.mem_append.1 hmem with hmem | hmem
          · exact hchain name hmem
          · rw [List.mem_singleton.1 hmem]
            exact hname
        · rw [List.length_append, List.length_singleton]
          omega

/-- An expansion that may go as deep as there are names, and one level more, goes to its end. -/
theorem expandWithin_ne_tooDeep_of_card_lt {html : String} {depth : Nat}
    (h : (namesWithin tree html).card < depth) :
    expandWithin tree templatesDir depth [] html ≠ .error .tooDeep := by
  have hnames : ∀ text ∈ html :: tree.texts, ∀ name ∈ componentNames text,
      name ∈ namesWithin tree html := fun text htext name hname =>
    List.mem_toFinset.2 (List.mem_flatMap.2 ⟨text, htext, hname⟩)
  exact expandWithin_ne_tooDeep (fun text htext => hnames text (List.mem_cons_of_mem _ htext))
    (hnames html List.mem_cons_self) List.nodup_nil (by simp) (by simpa using h)

theorem compile_ne_tooDeep (html : String) :
    compile tree templatesDir html ≠ .error .tooDeep :=
  expandWithin_ne_tooDeep_of_card_lt (card_namesWithin_lt tree html)

/-- The depth that `compile` starts with plays no part in the result, as any depth above the number
of names gives the same. -/
theorem expandWithin_eq_compile {html : String} {depth : Nat}
    (h : (namesWithin tree html).card < depth) :
    expandWithin tree templatesDir depth [] html = compile tree templatesDir html := by
  rcases Nat.le_total depth (depthBound tree html) with hle | hle
  · exact (expandWithin_eq_of_le hle (expandWithin_ne_tooDeep_of_card_lt h)).symm
  · exact expandWithin_eq_of_le hle (compile_ne_tooDeep html)

end Template

end SiteCompiler
