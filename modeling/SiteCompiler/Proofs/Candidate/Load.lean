import SiteCompiler.Candidate.Load
import SiteCompiler.Proofs.Candidate.Registry
import SiteCompiler.Proofs.FileTree.Sound
import SiteCompiler.Proofs.Text.ByteOrder
import Mathlib.Data.List.Sort
set_option autoImplicit false

/-! # What is read from the candidates directory

A *home* of candidates is a directory in a layer with a fragment that can be read. A candidate is
called what a reader sees of the name of its home. The registry that is read from the candidates
directory holds these names in the order of their first homes, each with the definition that its
last home gives, and reports a name once for each home after the first (`load_layered`).

A name that is a text has one home in a layer at most, so if all homes have such names, layers may
be said for homes (`Layered`). Two homes whose names are not UTF-8 can have one name in one layer
(`load_blurredTree`).
-/

namespace SiteCompiler.Candidate

variable {tree : FileTree} {candidatesDir : Path} {layer : Layer} {folder : OsText} {name : String}

/-! ## Homes -/

/-- The path of a directory in a layer. -/
def home (candidatesDir : Path) (layer : Layer) (folder : OsText) : Path :=
  (candidatesDir.join layer.name).join folder

/-- What a directory in a layer defines. -/
def definition (tree : FileTree) (candidatesDir : Path) (folder : OsText) (layer : Layer) :
    Candidate where
  name := folder.text
  layer := layer
  criticalCss := (tree.readText ((home candidatesDir layer folder).join criticalFile)).toOption
  nonCriticalCss :=
    (tree.readText ((home candidatesDir layer folder).join nonCriticalFile)).toOption

/-- Whether a candidate has a fragment. -/
def hasFragment (candidate : Candidate) : Bool :=
  candidate.criticalCss.isSome || candidate.nonCriticalCss.isSome

/-- Whether a name of a file names a directory in a layer in which a fragment can be read. -/
def eligible (tree : FileTree) (candidatesDir : Path) (folder : OsText) (layer : Layer) : Bool :=
  decide (FileTree.IsName folder) && tree.isDirectory (home candidatesDir layer folder) &&
    hasFragment (definition tree candidatesDir folder layer)

/-- The layers in which a text is eligible, in cascade order. -/
def eligibleLayers (tree : FileTree) (candidatesDir : Path) (name : String) : List Layer :=
  Layer.all.filter (eligible tree candidatesDir name)

/-! ## The directories of a layer -/

theorem isSegment_name (layer : Layer) : Path.IsSegment layer.name := by
  cases layer <;> decide

/-- In the directory of a layer are the directories that a path leads to. -/
theorem mem_directoryNames_iff (hsound : tree.Sound) :
    folder ∈ directoryNames tree (candidatesDir.join layer.name) ↔
      FileTree.IsName folder ∧ tree.isDirectory (home candidatesDir layer folder) = true := by
  have hlayer := Path.names_join (p := candidatesDir) (isSegment_name layer)
  have hlayerEnds := Path.endsWithSeparator_join (p := candidatesDir) (isSegment_name layer)
  rw [directoryNames]
  constructor
  · intro h
    split at h
    · cases h
    · next loc hloc =>
        obtain ⟨hmem, hdirectory⟩ := List.mem_filter.1 h
        obtain ⟨entry, hentry⟩ := hsound.mem_names.1 hmem
        exact ⟨hsound.isName hentry (by simp), hdirectory⟩
  · rintro ⟨hname, hdirectory⟩
    -- The walk to the directory goes through the directory of the layer.
    have hnames := Path.names_join (p := candidatesDir.join layer.name) hname.1
    have hends := Path.endsWithSeparator_join (p := candidatesDir.join layer.name) hname.1
    obtain ⟨loc, hloc⟩ : ∃ loc, tree.locate (home candidatesDir layer folder) = .ok loc := by
      rw [FileTree.isDirectory, FileTree.find?] at hdirectory
      split at hdirectory
      · next loc hloc => exact ⟨loc, hloc⟩
      · cases hdirectory
    have hraw : (candidatesDir.join layer.name).raw.isEmpty = false := by
      have hne := Path.raw_ne_empty_of_names (p := candidatesDir.join layer.name)
        (by simp [hlayer])
      simpa using hne
    have hwalk : tree.walk FileTree.linkLimit [] ((candidatesDir.join layer.name).names ++ [folder])
        = .ok loc := by
      rw [FileTree.locate, home, Path.segments_eq, hends, hnames] at hloc
      split at hloc
      · cases hloc
      · exact hloc
    obtain ⟨above, habove, hentry⟩ := FileTree.endsBeside_walk ⟨hname.2.1, hname.2.2.1⟩ hwalk
    have hlocate : tree.locate (candidatesDir.join layer.name) = .ok above := by
      rw [FileTree.locate, hraw, Path.segments_eq, hlayerEnds]
      exact habove
    rw [hlocate]
    exact List.mem_filter.2 ⟨hsound.mem_names.2 (Option.isSome_iff_exists.1 hentry), hdirectory⟩

theorem pairwise_directoryNames (hsound : tree.Sound) (dir : Path) :
    (directoryNames tree dir).Pairwise fun folder other => folder.bytes < other.bytes := by
  rw [directoryNames]
  split
  · exact List.Pairwise.nil
  · exact (hsound.pairwise_names _).filter _

/-! ## The candidates of a layer -/

theorem fst_readFragment (tree : FileTree) (path : Path) :
    (readFragment tree path).1 = (tree.readText path).toOption := by
  rw [readFragment]
  split
  · next h => rw [h]; rfl
  · next h => rw [h]; rfl
  · next h => rw [h]; rfl

theorem fst_read (tree : FileTree) (candidatesDir : Path) (layer : Layer) (folder : OsText) :
    (read tree layer folder.text (home candidatesDir layer folder)).1
      = if hasFragment (definition tree candidatesDir folder layer)
        then some (definition tree candidatesDir folder layer) else none := by
  have htest :
      ((readFragment tree ((home candidatesDir layer folder).join criticalFile)).1.isNone &&
        (readFragment tree ((home candidatesDir layer folder).join nonCriticalFile)).1.isNone)
        = !hasFragment (definition tree candidatesDir folder layer) := by
    rw [fst_readFragment, fst_readFragment, hasFragment, Bool.not_or, Option.not_isSome,
      Option.not_isSome]
    rfl
  simp only [read, htest]
  by_cases h : hasFragment (definition tree candidatesDir folder layer) = true
  · rw [h, if_neg (by decide), if_pos rfl, fst_readFragment, fst_readFragment]
    rfl
  · simp [h]

/-- The homes in a layer, in order. -/
def homesIn (tree : FileTree) (candidatesDir : Path) (layer : Layer) : List OsText :=
  (directoryNames tree (candidatesDir.join layer.name)).filter fun folder =>
    hasFragment (definition tree candidatesDir folder layer)

theorem mem_homesIn_iff (hsound : tree.Sound) :
    folder ∈ homesIn tree candidatesDir layer ↔
      eligible tree candidatesDir folder layer = true := by
  rw [homesIn, List.mem_filter, mem_directoryNames_iff hsound, eligible, Bool.and_eq_true,
    Bool.and_eq_true, decide_eq_true_eq]

theorem pairwise_homesIn (hsound : tree.Sound) (candidatesDir : Path) (layer : Layer) :
    (homesIn tree candidatesDir layer).Pairwise fun folder other => folder.bytes < other.bytes :=
  (pairwise_directoryNames hsound _).filter _

theorem fst_readLayer (tree : FileTree) (candidatesDir : Path) (layer : Layer) :
    (readLayer tree (candidatesDir.join layer.name) layer).1
      = (homesIn tree candidatesDir layer).map fun folder =>
          definition tree candidatesDir folder layer := by
  have hread (folder : OsText) :
      (read tree layer folder.text ((candidatesDir.join layer.name).join folder)).1
        = if hasFragment (definition tree candidatesDir folder layer)
          then some (definition tree candidatesDir folder layer) else none :=
    fst_read tree candidatesDir layer folder
  simp only [readLayer, List.filterMap_map, homesIn]
  rw [← List.filterMap_eq_map, List.filterMap_filter]
  refine List.filterMap_congr fun folder _ => ?_
  simp only [Function.comp_apply, hread]

/-- The homes in all layers, in the order in which they are read. -/
def homes (tree : FileTree) (candidatesDir : Path) : List (Layer × OsText) :=
  Layer.all.flatMap fun layer =>
    (homesIn tree candidatesDir layer).map fun folder => (layer, folder)

/-! ## Names that are taken -/

/-- What is reported when candidates are registered one after another. -/
def collisions : Registry → List Candidate → List Event
  | _, [] => []
  | registry, candidate :: cs =>
      (registry.get? candidate.name).toList.map
          (fun previous => .nameTaken candidate.name previous.layer candidate.layer)
        ++ collisions (registry.insert candidate) cs

theorem foldl_register (cs : List Candidate) (registry : Registry) (events : List Event) :
    cs.foldl register (registry, events)
      = (cs.foldl Registry.insert registry, events ++ collisions registry cs) := by
  induction cs generalizing registry events with
  | nil => simp [collisions]
  | cons candidate cs ih =>
      have hstep : register (registry, events) candidate = (registry.insert candidate,
          events ++ (registry.get? candidate.name).toList.map
            fun previous => .nameTaken candidate.name previous.layer candidate.layer) := by
        rw [register]
        cases registry.get? candidate.name with
        | none => simp
        | some previous => rfl
      rw [List.foldl_cons, hstep, ih, collisions, List.foldl_cons, List.append_assoc]

theorem collisions_append (registry : Registry) (as bs : List Candidate) :
    collisions registry (as ++ bs)
      = collisions registry as ++ collisions (as.foldl Registry.insert registry) bs := by
  induction as generalizing registry with
  | nil => rfl
  | cons candidate as ih =>
      rw [List.cons_append, collisions, collisions, ih, List.append_assoc]
      rfl

/-- Whether an event reports that a name was taken. -/
def reportsTaken (name : String) : Event → Bool
  | .nameTaken candidate _ _ => candidate == name
  | _ => false

/-- One report for each layer after the first, with the layer before it. -/
def handovers (name : String) (layers : List Layer) : List Event :=
  (layers.zip layers.tail).map fun pair => .nameTaken name pair.1 pair.2

theorem handovers_concat (name : String) (layers : List Layer) (layer : Layer) :
    handovers name (layers ++ [layer]) = handovers name layers
      ++ layers.getLast?.toList.map fun previous => .nameTaken name previous layer := by
  induction layers with
  | nil => rfl
  | cons first layers ih =>
      cases layers with
      | nil => rfl
      | cons second layers => exact congrArg (Event.nameTaken name first second :: ·) ih

/-- Of one name, each candidate after the first is reported, with the layer of the one before. -/
theorem filter_collisions (name : String) (cs : List Candidate) :
    (collisions Registry.empty cs).filter (reportsTaken name)
      = handovers name ((cs.filter fun c => c.name == name).map Candidate.layer) := by
  induction cs using List.reverseRecOn with
  | nil => rfl
  | append_singleton cs candidate ih =>
      have hlast : collisions (cs.foldl Registry.insert Registry.empty) [candidate]
          = (Registry.ofList cs |>.get? candidate.name).toList.map
              fun previous => .nameTaken candidate.name previous.layer candidate.layer := by
        rw [collisions, collisions, List.append_nil]
        rfl
      rw [collisions_append, hlast, List.filter_append, ih, List.filter_append, List.map_append]
      by_cases hname : candidate.name = name
      · subst hname
        have hall (o : Option Candidate) : (o.toList.map fun previous =>
            Event.nameTaken candidate.name previous.layer candidate.layer).filter
              (reportsTaken candidate.name)
            = (o.map Candidate.layer).toList.map
                fun previous => .nameTaken candidate.name previous candidate.layer := by
          cases o <;> simp [reportsTaken]
        rw [hall, Registry.get?_ofList, List.filter_singleton, beq_self_eq_true, cond_true,
          List.map_singleton, handovers_concat, List.getLast?_map]
      · have hnone : ((Registry.ofList cs |>.get? candidate.name).toList.map fun previous =>
            Event.nameTaken candidate.name previous.layer candidate.layer).filter
              (reportsTaken name) = [] := by
          cases (Registry.ofList cs |>.get? candidate.name) <;> simp [reportsTaken, hname]
        simp [hnone, hname]

/-! ## All layers -/

theorem filter_snd_readFragment (tree : FileTree) (path : Path) (name : String) :
    (readFragment tree path).2.filter (reportsTaken name) = [] := by
  rw [readFragment]
  split <;> rfl

theorem filter_snd_readLayer (tree : FileTree) (dir : Path) (layer : Layer) (name : String) :
    (readLayer tree dir layer).2.filter (reportsTaken name) = [] := by
  rw [readLayer, List.filter_flatMap, List.flatMap_eq_nil_iff]
  intro found hfound
  obtain ⟨other, -, rfl⟩ := List.mem_map.1 hfound
  have hevents : (read tree layer other.text (dir.join other)).2
      = (readFragment tree ((dir.join other).join criticalFile)).2
        ++ (readFragment tree ((dir.join other).join nonCriticalFile)).2 := by
    rw [read]
    split <;> rfl
  rw [hevents, List.filter_append, filter_snd_readFragment, filter_snd_readFragment]
  rfl

/-- The candidates in all layers, in the order in which they are read. -/
def inLayers (tree : FileTree) (candidatesDir : Path) (layers : List Layer) : List Candidate :=
  layers.flatMap fun layer => (readLayer tree (candidatesDir.join layer.name) layer).1

theorem foldl_loadLayer (tree : FileTree) (candidatesDir : Path) (name : String)
    (layers : List Layer) (registry : Registry) (events : List Event) :
    (layers.foldl (loadLayer tree candidatesDir) (registry, events)).1
        = (inLayers tree candidatesDir layers).foldl Registry.insert registry ∧
      (layers.foldl (loadLayer tree candidatesDir) (registry, events)).2.filter (reportsTaken name)
        = events.filter (reportsTaken name)
          ++ (collisions registry (inLayers tree candidatesDir layers)).filter
            (reportsTaken name) := by
  induction layers generalizing registry events with
  | nil => simp [inLayers, collisions]
  | cons layer layers ih =>
      have hcons : inLayers tree candidatesDir (layer :: layers)
          = (readLayer tree (candidatesDir.join layer.name) layer).1
            ++ inLayers tree candidatesDir layers := rfl
      rw [List.foldl_cons, loadLayer, foldl_register, hcons, List.foldl_append]
      obtain ⟨hregistry, hevents⟩ := ih
        ((readLayer tree (candidatesDir.join layer.name) layer).1.foldl Registry.insert registry)
        (events ++ (readLayer tree (candidatesDir.join layer.name) layer).2
          ++ collisions registry (readLayer tree (candidatesDir.join layer.name) layer).1)
      refine ⟨hregistry, hevents.trans ?_⟩
      rw [collisions_append, List.filter_append, List.filter_append, filter_snd_readLayer,
        List.append_nil, List.filter_append, List.append_assoc]

theorem inLayers_all (tree : FileTree) (candidatesDir : Path) :
    inLayers tree candidatesDir Layer.all
      = (homes tree candidatesDir).map fun home => definition tree candidatesDir home.2 home.1 := by
  rw [inLayers, homes, List.map_flatMap]
  congr 1
  funext layer
  rw [fst_readLayer, List.map_map]
  rfl

theorem fst_load (tree : FileTree) (candidatesDir : Path) :
    (load tree candidatesDir).1 = Registry.ofList (inLayers tree candidatesDir Layer.all) :=
  (foldl_loadLayer tree candidatesDir "" Layer.all Registry.empty []).1

/-- The homes of a name. -/
def homesOf (homes : List (Layer × OsText)) (name : String) : List (Layer × OsText) :=
  homes.filter fun home => home.2.text == name

theorem filter_inLayers (tree : FileTree) (candidatesDir : Path) (name : String) :
    ((inLayers tree candidatesDir Layer.all).filter fun c => c.name == name)
      = (homesOf (homes tree candidatesDir) name).map fun home =>
          definition tree candidatesDir home.2 home.1 := by
  rw [inLayers_all, List.filter_map]
  rfl

theorem names_load (tree : FileTree) (candidatesDir : Path) : (load tree candidatesDir).1.names
    = ((homes tree candidatesDir).map fun home => home.2.text).eraseDups := by
  rw [fst_load, Registry.names_ofList, inLayers_all, List.map_map]
  rfl

theorem get?_load (tree : FileTree) (candidatesDir : Path) (name : String) :
    (load tree candidatesDir).1.get? name
      = (homesOf (homes tree candidatesDir) name).getLast?.map fun home =>
          definition tree candidatesDir home.2 home.1 := by
  rw [fst_load, Registry.get?_ofList, filter_inLayers, List.getLast?_map]

theorem filter_snd_load (tree : FileTree) (candidatesDir : Path) (name : String) :
    (load tree candidatesDir).2.filter (reportsTaken name)
      = handovers name ((homesOf (homes tree candidatesDir) name).map Prod.fst) := by
  have hevents := (foldl_loadLayer tree candidatesDir name Layer.all Registry.empty []).2
  rw [filter_collisions, filter_inLayers, List.map_map] at hevents
  exact hevents

/-! ## Homes in order -/

/-- The homes of candidates, each once: layers in cascade order, and in each layer the directories
in the order of their bytes. -/
structure AreHomes (tree : FileTree) (candidatesDir : Path) (homes : List (Layer × OsText)) :
    Prop where
  mem_iff : ∀ layer folder, (layer, folder) ∈ homes ↔
    eligible tree candidatesDir folder layer = true
  ordered : homes.Pairwise fun home other =>
    Layer.all.idxOf home.1 < Layer.all.idxOf other.1 ∨
      home.1 = other.1 ∧ home.2.bytes < other.2.bytes

theorem areHomes_homes (hsound : tree.Sound) (candidatesDir : Path) :
    AreHomes tree candidatesDir (homes tree candidatesDir) := by
  constructor
  · intro layer folder
    rw [← mem_homesIn_iff hsound]
    simp [homes, Layer.mem_all]
  · have hlayers : Layer.all.Pairwise fun layer other =>
        Layer.all.idxOf layer < Layer.all.idxOf other := by
      decide
    refine List.pairwise_flatMap.2 ⟨fun layer _ => ?_, hlayers.imp fun hlt => ?_⟩
    · exact List.pairwise_map.2 ((pairwise_homesIn hsound candidatesDir layer).imp fun hlt =>
        Or.inr ⟨rfl, hlt⟩)
    · intro home hhome other hother
      obtain ⟨_, -, rfl⟩ := List.mem_map.1 hhome
      obtain ⟨_, -, rfl⟩ := List.mem_map.1 hother
      exact Or.inl hlt

/-- The registry and the reports are those of the homes of candidates. -/
structure ReadFrom (tree : FileTree) (candidatesDir : Path) (homes : List (Layer × OsText))
    (registry : Registry) (events : List Event) : Prop where
  nodup : registry.names.Nodup
  /-- Names stand in the order of their first homes. -/
  names_eq : registry.names = (homes.map fun home => home.2.text).eraseDups
  /-- The last home of a name defines its candidate, with both fragments. -/
  definition_eq : ∀ candidate ∈ registry.candidates, ∃ home,
    (homesOf homes candidate.name).getLast? = some home ∧
      candidate = definition tree candidatesDir home.2 home.1
  reports_eq : ∀ name,
    events.filter (reportsTaken name) = handovers name ((homesOf homes name).map Prod.fst)

theorem readFrom_homes (tree : FileTree) (candidatesDir : Path) :
    ReadFrom tree candidatesDir (homes tree candidatesDir) (load tree candidatesDir).1
      (load tree candidatesDir).2 := by
  have hnodup : (load tree candidatesDir).1.names.Nodup := by
    rw [names_load]
    exact FirstOccurrence.nodup_eraseDups _
  refine ⟨hnodup, names_load tree candidatesDir, ?_, filter_snd_load tree candidatesDir⟩
  intro candidate hcandidate
  have hself := Registry.get?_of_mem hnodup hcandidate
  rw [get?_load] at hself
  obtain ⟨home, hlast, hdefinition⟩ := Option.map_eq_some_iff.1 hself
  exact ⟨home, hlast, hdefinition.symm⟩

/-! ## Homes whose names are texts -/

/-- The names of all homes are texts. -/
def AllText (tree : FileTree) (candidatesDir : Path) : Prop :=
  ∀ layer folder, eligible tree candidatesDir folder layer = true → folder.IsText

theorem allText_of_entries (hsound : tree.Sound)
    (htext : ∀ e ∈ tree.entries, ∀ name ∈ e.1, name.IsText) : AllText tree candidatesDir := by
  intro layer folder hfolder
  have hmem := (List.mem_filter.1 ((mem_homesIn_iff hsound).2 hfolder)).1
  rw [directoryNames] at hmem
  split at hmem
  · cases hmem
  · next loc hloc =>
      obtain ⟨entry, hentry⟩ := hsound.mem_names.1 (List.mem_filter.1 hmem).1
      exact hsound.isText htext hentry (by simp)

/-- The position of the first layer in which a text is eligible. -/
def firstLayer (tree : FileTree) (candidatesDir : Path) (name : String) : Nat :=
  Layer.all.findIdx (eligible tree candidatesDir name)

/-- The registry and the reports are those of the layers of the candidates directory. -/
structure Layered (tree : FileTree) (candidatesDir : Path) (registry : Registry)
    (events : List Event) : Prop where
  nodup : registry.names.Nodup
  mem_names_iff : ∀ name, name ∈ registry.names ↔
    ∃ layer, eligible tree candidatesDir (name : String) layer = true
  /-- The last layer of a name defines its candidate, with both fragments. -/
  definition_eq : ∀ candidate ∈ registry.candidates, ∃ layer,
    (eligibleLayers tree candidatesDir candidate.name).getLast? = some layer ∧
      candidate = definition tree candidatesDir candidate.name layer
  /-- Names stand in the order of their first layers, and within one layer in the order of their
  bytes. -/
  ordered : registry.names.Pairwise fun name other =>
    firstLayer tree candidatesDir name < firstLayer tree candidatesDir other ∨
      firstLayer tree candidatesDir name = firstLayer tree candidatesDir other ∧
        Text.bytes name < Text.bytes other
  reports_eq : ∀ name,
    events.filter (reportsTaken name) = handovers name (eligibleLayers tree candidatesDir name)

section

variable (hsound : tree.Sound) (htext : AllText tree candidatesDir)
include hsound htext

theorem text_eq_iff (hfolder : folder ∈ homesIn tree candidatesDir layer) :
    folder.text = name ↔ folder = name := by
  constructor
  · rintro rfl
    exact (htext layer folder ((mem_homesIn_iff hsound).1 hfolder)).symm
  · rintro rfl
    exact OsText.text_ofText name

/-- A layer has one home of a name, or none. -/
theorem filter_homesIn (layer : Layer) (name : String) :
    ((homesIn tree candidatesDir layer).filter fun folder => folder.text == name)
      = if eligible tree candidatesDir name layer then [OsText.ofText name] else [] := by
  have hsame : ((homesIn tree candidatesDir layer).filter fun folder => folder.text == name)
      = (homesIn tree candidatesDir layer).filter (· == OsText.ofText name) := by
    refine List.filter_congr fun folder hfolder => ?_
    rw [Bool.eq_iff_iff, beq_iff_eq, beq_iff_eq]
    exact text_eq_iff hsound htext hfolder
  have hnodup : (homesIn tree candidatesDir layer).Nodup := by
    refine (pairwise_homesIn hsound candidatesDir layer).imp ?_
    rintro folder _ hlt rfl
    exact Std.lt_irrefl hlt
  rw [hsame, List.filter_beq]
  by_cases h : eligible tree candidatesDir name layer = true
  · rw [if_pos h, List.count_eq_one_of_mem hnodup ((mem_homesIn_iff hsound).2 h)]
    rfl
  · have hnot : OsText.ofText name ∉ homesIn tree candidatesDir layer :=
      fun hmem => h ((mem_homesIn_iff hsound).1 hmem)
    rw [if_neg h, List.count_eq_zero_of_not_mem hnot]
    rfl

/-- A name has one home in each layer in which it is eligible. -/
theorem homesOf_homes (name : String) : homesOf (homes tree candidatesDir) name
    = (eligibleLayers tree candidatesDir name).map fun layer => (layer, OsText.ofText name) := by
  have hlayer (layer : Layer) :
      (((homesIn tree candidatesDir layer).map fun folder => (layer, folder)).filter
        fun home => home.2.text == name)
        = if eligible tree candidatesDir name layer then [(layer, OsText.ofText name)] else [] := by
    have hcomp :
        ((fun home : Layer × OsText => home.2.text == name) ∘ fun folder => (layer, folder))
          = fun folder => folder.text == name := rfl
    rw [List.filter_map, hcomp, filter_homesIn hsound htext]
    split <;> rfl
  rw [homesOf, homes, List.filter_flatMap, eligibleLayers]
  simp only [hlayer]
  induction Layer.all with
  | nil => rfl
  | cons layer layers ih =>
      rw [List.flatMap_cons, List.filter_cons, ih]
      split <;> rfl

theorem contains_map_text (name : String) (layer : Layer) :
    ((homesIn tree candidatesDir layer).map OsText.text).contains name
      = eligible tree candidatesDir name layer := by
  rw [Bool.eq_iff_iff, List.contains_iff_mem, ← mem_homesIn_iff hsound, List.mem_map]
  constructor
  · rintro ⟨folder, hfolder, heq⟩
    rwa [← (text_eq_iff hsound htext hfolder).1 heq]
  · exact fun hname => ⟨_, hname, OsText.text_ofText name⟩

theorem ordered_load : (load tree candidatesDir).1.names.Pairwise fun name other =>
    firstLayer tree candidatesDir name < firstLayer tree candidatesDir other ∨
      firstLayer tree candidatesDir name = firstLayer tree candidatesDir other ∧
        Text.bytes name < Text.bytes other := by
  have hnames : (load tree candidatesDir).1.names
      = (Layer.all.flatMap fun layer =>
          (homesIn tree candidatesDir layer).map OsText.text).eraseDups := by
    rw [names_load, homes, List.map_flatMap]
    simp only [List.map_map]
    rfl
  have hordered := FirstOccurrence.pairwise_eraseDups_flatMap
    (r := fun name other => Text.bytes name < Text.bytes other) (fun name => Std.lt_irrefl)
    (fun layer => (homesIn tree candidatesDir layer).map OsText.text) Layer.all fun layer _ => ?_
  · rw [← hnames] at hordered
    simp only [contains_map_text hsound htext] at hordered
    exact hordered
  · refine List.pairwise_map.2 ((pairwise_homesIn hsound candidatesDir layer).imp_of_mem ?_)
    intro folder other hfolder hother hlt
    have hbytes {folder : OsText} (hmem : folder ∈ homesIn tree candidatesDir layer) :
        Text.bytes folder.text = folder.bytes :=
      congrArg OsText.bytes (htext layer folder ((mem_homesIn_iff hsound).1 hmem))
    rw [hbytes hfolder, hbytes hother]
    exact hlt

theorem layered_load :
    Layered tree candidatesDir (load tree candidatesDir).1 (load tree candidatesDir).2 := by
  obtain ⟨hnodup, hnames, hdefinition, hreports⟩ := readFrom_homes tree candidatesDir
  refine ⟨hnodup, fun name => ?_, fun candidate hcandidate => ?_, ordered_load hsound htext,
    fun name => ?_⟩
  · rw [hnames, List.mem_eraseDups, List.mem_map]
    constructor
    · rintro ⟨⟨layer, folder⟩, hhome, rfl⟩
      have hfolder := ((areHomes_homes hsound candidatesDir).mem_iff layer folder).1 hhome
      exact ⟨layer, (htext layer folder hfolder).symm ▸ hfolder⟩
    · rintro ⟨layer, hname⟩
      exact ⟨(layer, name), ((areHomes_homes hsound candidatesDir).mem_iff layer _).2 hname,
        OsText.text_ofText name⟩
  · obtain ⟨home, hlast, heq⟩ := hdefinition candidate hcandidate
    rw [homesOf_homes hsound htext, List.getLast?_map] at hlast
    obtain ⟨layer, hlayer, rfl⟩ := Option.map_eq_some_iff.1 hlast
    exact ⟨layer, hlayer, heq⟩
  · rw [hreports, homesOf_homes hsound htext, List.map_map]
    exact congrArg (handovers name) (List.map_id _)

end

/-- **The registry is the layered directory.** The names of candidates stand in the order of their
first homes, the last home of a name defines it, and it is reported once for each home after the
first, with the layers of this one and the one before. If the names of all homes are texts, a name
has at most one home in a layer, so that the same can be said of layers. -/
theorem load_layered (tree : FileTree) (hsound : tree.Sound) (candidatesDir : Path) :
    (∃ homes, AreHomes tree candidatesDir homes ∧
      ReadFrom tree candidatesDir homes (load tree candidatesDir).1 (load tree candidatesDir).2) ∧
    (AllText tree candidatesDir →
      Layered tree candidatesDir (load tree candidatesDir).1 (load tree candidatesDir).2) :=
  ⟨⟨homes tree candidatesDir, areHomes_homes hsound candidatesDir,
    readFrom_homes tree candidatesDir⟩, layered_load hsound⟩

/-- A name in three layers, in one of which its fragment is no text. -/
def buttonTree : FileTree where
  entries := [
    (["c"], .directory), (["c", "layout"], .directory), (["c", "components"], .directory),
    (["c", "utils"], .directory), (["c", "layout", "zed"], .directory),
    (["c", "layout", "zed", "critical.css"], .file "z".toUTF8),
    (["c", "layout", "btn"], .directory),
    (["c", "layout", "btn", "critical.css"], .file "b".toUTF8),
    (["c", "components", "btn"], .directory),
    (["c", "components", "btn", "critical.css"], .file ⟨#[255]⟩),
    (["c", "components", "note"], .file "n".toUTF8), (["c", "utils", "btn"], .link "../../u"),
    (["u"], .directory), (["u", "non-critical.css"], .file "u".toUTF8),
    (["c", "utils", "a"], .directory), (["c", "utils", "a", "critical.css"], .file "a".toUTF8)]

theorem load_layered_buttonTree :
    buttonTree.Sound ∧ eligibleLayers buttonTree ⟨"c"⟩ "btn" = [.layout, .utils] ∧
      (∃ homes, AreHomes buttonTree ⟨"c"⟩ homes ∧ (Layer.utils, OsText.ofText "btn") ∈ homes) ∧
      Layered buttonTree ⟨"c"⟩ (load buttonTree ⟨"c"⟩).1 (load buttonTree ⟨"c"⟩).2 := by
  have hsound : buttonTree.Sound := by decide +kernel
  obtain ⟨⟨homes, hhomes, -⟩, hlayered⟩ := load_layered buttonTree hsound ⟨"c"⟩
  refine ⟨hsound, by decide +kernel, ⟨homes, hhomes, ?_⟩,
    hlayered (allText_of_entries hsound (by decide +kernel))⟩
  exact (hhomes.mem_iff _ _).2 (by decide +kernel)

/-- Two directories of one layer whose names look the same to a reader, and a fragment that stands
in the directory of the layer itself. -/
def blurredTree : FileTree where
  entries := [(["c"], .directory), (["c", "utils"], .directory),
    (["c", "utils", "critical.css"], .file "u".toUTF8), (["c", "utils", ⟨[0xFE]⟩], .directory),
    (["c", "utils", ⟨[0xFE]⟩, "critical.css"], .file "x".toUTF8),
    (["c", "utils", ⟨[0xFF]⟩], .directory),
    (["c", "utils", ⟨[0xFF]⟩, "critical.css"], .file "y".toUTF8)]

theorem homes_blurredTree :
    homes blurredTree ⟨"c"⟩ = [(.utils, ⟨[0xFE]⟩), (.utils, ⟨[0xFF]⟩)] := by
  have hnames : blurredTree.names ["c", "utils"]
      = [OsText.ofText "critical.css", ⟨[0xFE]⟩, ⟨[0xFF]⟩] :=
    List.mergeSort_of_pairwise (by decide)
  have hlocate : blurredTree.locate ((Path.mk "c").join "utils") = .ok ["c", "utils"] := by
    decide +kernel
  have hutils : homesIn blurredTree ⟨"c"⟩ .utils = [⟨[0xFE]⟩, ⟨[0xFF]⟩] := by
    rw [homesIn, directoryNames, Layer.name, hlocate]
    simp only [hnames]
    decide +kernel
  have hothers : ∀ layer ∈ [Layer.global, .layout, .components],
      homesIn blurredTree ⟨"c"⟩ layer = [] := by
    decide +kernel
  simp only [List.forall_mem_cons] at hothers
  simp [homes, Layer.all, hutils, hothers]

/-- The two directories are registered under one name, which is eligible in no layer, and reported
as if they stood in different layers. The fragment of the layer itself is read for no candidate,
though a path that ends in a name leads to its directory. -/
theorem load_blurredTree :
    blurredTree.Sound ∧ (load blurredTree ⟨"c"⟩).1.names = ["\ufffd"] ∧
      eligibleLayers blurredTree ⟨"c"⟩ "\ufffd" = [] ∧
      (load blurredTree ⟨"c"⟩).2.filter (reportsTaken "\ufffd")
        = [.nameTaken "\ufffd" .utils .utils] ∧
      blurredTree.isDirectory (home ⟨"c"⟩ .utils ".") = true ∧
      hasFragment (definition blurredTree ⟨"c"⟩ "." .utils) = true := by
  rw [names_load, filter_snd_load, homes_blurredTree]
  exact ⟨by decide +kernel, rfl, by decide +kernel, rfl, by decide +kernel, by decide +kernel⟩

end SiteCompiler.Candidate
