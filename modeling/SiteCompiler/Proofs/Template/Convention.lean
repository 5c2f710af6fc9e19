import SiteCompiler.Proofs.Path
import SiteCompiler.Template.Path
set_option autoImplicit false

/-! # When two components have one template

By convention the parts of a component name, cut at dashes, lead from the templates directory to the
template. Joining an empty part is no step (`path_eq`), so a name with leading, doubled or trailing
dashes can have the path of another one. Nothing else makes two paths the same, because the path
leads through the directories of the name and on to its file (`names_path`), and these are the
name's parts but for the empty ones (`path_text_eq_iff`). It makes no difference whether paths are
compared or what a reader sees of them (`path_eq_of_text`).
-/

namespace SiteCompiler.Template

/-! ## Parts of names -/

/-- The parts of a component name, cut at `-`. -/
def nameParts (name : String) : List String := (name.toList.splitOn '-').map String.ofList

/-- The last part of a component name. -/
def lastNamePart (name : String) : String := (nameParts name).getLast?.getD ""

/-- The parts in front of the last one, but for the empty ones. -/
def directories (name : String) : List String := (nameParts name).dropLast.filter (· ≠ "")

variable {name other : String}

theorem nameParts_ne_nil (name : String) : nameParts name ≠ [] := by
  simp [nameParts]

theorem nameParts_eq (name : String) :
    nameParts name = (nameParts name).dropLast ++ [lastNamePart name] := by
  have hlast : (nameParts name).getLast (nameParts_ne_nil name) = lastNamePart name := by
    rw [lastNamePart, List.getLast?_eq_some_getLast (nameParts_ne_nil name), Option.getD_some]
  rw [← hlast, List.dropLast_append_getLast]

/-- A name is its parts with dashes in between. -/
theorem intercalate_nameParts (name : String) : String.intercalate "-" (nameParts name) = name := by
  have hlists : (nameParts name).map String.toList = name.toList.splitOn '-' := by
    rw [nameParts, List.map_map]
    calc _ = (name.toList.splitOn '-').map id :=
          List.map_congr_left fun _ _ => String.toList_ofList
      _ = name.toList.splitOn '-' := List.map_id _
  rw [← String.toList_inj, String.toList_intercalate, hlists]
  exact List.intercalate_splitOn '-'

theorem directories_eq_dropLast (h : "" ∉ nameParts name) :
    directories name = (nameParts name).dropLast := by
  refine List.filter_eq_self.2 fun segment hsegment => ?_
  have hne : segment ≠ "" := by
    rintro rfl
    exact h (List.dropLast_subset _ hsegment)
  simpa using hne

section NoSeparator

variable (hname : '/' ∉ name.toList)
include hname

theorem not_mem_of_mem_nameParts {segment : String} (h : segment ∈ nameParts name) :
    '/' ∉ segment.toList := by
  obtain ⟨piece, hpiece, rfl⟩ := List.mem_map.1 h
  rw [String.toList_ofList]
  exact fun hmem => hname (Path.mem_of_mem_splitOn hpiece hmem)

theorem isSegment_of_mem_directories :
    ∀ segment ∈ (directories name).map OsText.ofText, Path.IsSegment segment := by
  intro segment hsegment
  obtain ⟨part, hpart, rfl⟩ := List.mem_map.1 hsegment
  obtain ⟨hpart, hne⟩ := List.mem_filter.1 hpart
  exact Path.isSegment_ofText (by simpa using hne)
    (not_mem_of_mem_nameParts hname (List.dropLast_subset _ hpart))

theorem isSegment_file : Path.IsSegment (lastNamePart name ++ ".html" : String) := by
  have hlast : lastNamePart name ∈ nameParts name := by
    rw [nameParts_eq]
    exact List.mem_append_right _ List.mem_cons_self
  refine Path.isSegment_ofText (by simp [String.append_eq_empty_iff]) ?_
  rw [String.toList_append, List.mem_append, not_or]
  exact ⟨not_mem_of_mem_nameParts hname hlast, by decide⟩

/-! ## Paths -/

theorem path_eq (dir : Path) : path dir name
    = (dir.joinAll ((directories name).map OsText.ofText)).join
        (lastNamePart name ++ ".html" : String) := by
  have hparts : ∀ part ∈ (nameParts name).dropLast.map OsText.ofText,
      Path.separator ∉ part.bytes := by
    intro part hpart
    obtain ⟨text, htext, rfl⟩ := List.mem_map.1 hpart
    rw [Path.separator_mem_iff, OsText.text_ofText]
    exact not_mem_of_mem_nameParts hname (List.dropLast_subset _ htext)
  have hempty : (directories name).map OsText.ofText
      = ((nameParts name).dropLast.map OsText.ofText).filter fun s : OsText => s ≠ "" := by
    rw [directories, List.filter_map]
    refine congrArg _ (List.filter_congr fun text _ => ?_)
    simp only [Function.comp_apply, ne_eq, OsText.ofText_inj]
  have hfile : lastNamePart name ++ "." ++ markupExtension = lastNamePart name ++ ".html" := by
    rw [String.append_assoc]
    rfl
  rw [hempty, Path.joinAll_filter_join hparts (isSegment_file hname), ← hfile]
  rfl

/-- The path of a template leads from the templates directory through the directories of the name
to its file. -/
theorem names_path (dir : Path) : (path dir name).names
    = dir.names ++ (directories name).map OsText.ofText
      ++ [OsText.ofText (lastNamePart name ++ ".html")] := by
  rw [path_eq hname, Path.names_join (isSegment_file hname),
    Path.names_joinAll (isSegment_of_mem_directories hname)]

/-- The directories of the name and its file, seen from the templates directory. -/
def relativeNames (name : String) : List String := directories name ++ [lastNamePart name ++ ".html"]

theorem isSegment_relativeNames :
    ∀ segment ∈ (relativeNames name).map OsText.ofText, Path.IsSegment segment := by
  rw [relativeNames, List.map_append]
  intro segment hsegment
  rcases List.mem_append.1 hsegment with hdirectory | hfile
  · exact isSegment_of_mem_directories hname segment hdirectory
  · rw [List.mem_singleton.1 hfile]
    exact isSegment_file hname

theorem path_eq_join (dir : Path) : path dir name
    = dir.join (OsText.intercalate Path.slash ((relativeNames name).map OsText.ofText)) := by
  rw [Path.join_intercalate (isSegment_relativeNames hname) (by simp [relativeNames]),
    path_eq hname, relativeNames, List.map_append, Path.joinAll, Path.joinAll, List.foldl_append]
  rfl

end NoSeparator

/-- Two templates that a reader sees at one path are one. -/
theorem path_eq_of_text {dir : Path} (hname : '/' ∉ name.toList) (hother : '/' ∉ other.toList)
    (htext : (path dir name).text = (path dir other).text) : path dir name = path dir other := by
  have hroot := Path.startsAtRoot_intercalate (isSegment_relativeNames hname)
  have hroot' := Path.startsAtRoot_intercalate (isSegment_relativeNames hother)
  rw [path_eq_join hname, path_eq_join hother] at htext ⊢
  have hsame := Path.text_join_inj hroot hroot' htext
  rw [← Path.ofText_intercalate, ← Path.ofText_intercalate, OsText.text_ofText,
    OsText.text_ofText] at hsame
  rw [← Path.ofText_intercalate, ← Path.ofText_intercalate, hsame]

theorem name_eq_of_nameParts (hname : "" ∉ nameParts name) (hother : "" ∉ nameParts other)
    (hlast : lastNamePart name = lastNamePart other)
    (hdirs : directories name = directories other) : name = other := by
  rw [directories_eq_dropLast hname, directories_eq_dropLast hother] at hdirs
  rw [← intercalate_nameParts name, ← intercalate_nameParts other, nameParts_eq name,
    nameParts_eq other, hdirs, hlast]

/-- **Only empty parts make two components share a path.** A path ends with the last part as its
file, and two names without separators in them have one path exactly if their last parts are equal
and the others are, but for the empty ones. -/
theorem path_text_eq_iff (dir : Path) (hname : '/' ∉ name.toList) (hother : '/' ∉ other.toList) :
    ((path dir name).text = (path dir other).text ↔
      lastNamePart name = lastNamePart other ∧ directories name = directories other) ∧
    ("" ∉ nameParts name → "" ∉ nameParts other → name ≠ other →
      (path dir name).text ≠ (path dir other).text) ∧
    (path dir name).names.getLast? = some (lastNamePart name ++ ".html" : String) := by
  have hiff : (path dir name).text = (path dir other).text ↔
      lastNamePart name = lastNamePart other ∧ directories name = directories other := by
    constructor
    · intro htext
      have hpath := path_eq_of_text hname hother htext
      have hnames := names_path hname dir
      rw [hpath, names_path hother] at hnames
      -- Both paths end with one file, so what leads to the files is the same as well.
      obtain ⟨hdirs, hfile⟩ := List.append_inj' hnames rfl
      have hsame : lastNamePart other ++ ".html" = lastNamePart name ++ ".html" :=
        OsText.ofText_inj.1 (List.cons.inj hfile).1
      have hmap := List.append_cancel_left hdirs
      refine ⟨((String.append_left_inj _).1 hsame).symm, ?_⟩
      exact List.map_injective_iff.2 (fun _ _ => OsText.ofText_inj.1) hmap.symm
    · rintro ⟨hlast, hdirs⟩
      rw [path_eq hname, path_eq hother, hlast, hdirs]
  refine ⟨hiff, ?_, ?_⟩
  · intro hfull hfull' hne htext
    obtain ⟨hlast, hdirs⟩ := hiff.1 htext
    exact hne (name_eq_of_nameParts hfull hfull' hlast hdirs)
  · rw [names_path hname]
    exact List.getLast?_concat

/-- Leading and doubled dashes, below a directory that is written with a separator; a dash elsewhere
leads to another file. -/
theorem path_text_eq_iff_dashes :
    '/' ∉ "-ui--card".toList ∧ '/' ∉ "ui-card".toList ∧ '/' ∉ "u-icard".toList ∧
      (path ⟨"t/"⟩ "-ui--card").text = (path ⟨"t/"⟩ "ui-card").text ∧
      (path ⟨"t/"⟩ "-ui--card").names.getLast? = some ("card.html" : OsText) ∧
      (path ⟨"t/"⟩ "ui-card").text ≠ (path ⟨"t/"⟩ "u-icard").text := by
  have hname : '/' ∉ "-ui--card".toList := by decide
  have hother : '/' ∉ "ui-card".toList := by decide
  have hthird : '/' ∉ "u-icard".toList := by decide
  obtain ⟨hiff, -, hlast⟩ := path_text_eq_iff ⟨"t/"⟩ hname hother
  obtain ⟨-, hne, -⟩ := path_text_eq_iff ⟨"t/"⟩ hother hthird
  refine ⟨hname, hother, hthird, hiff.2 (by decide +kernel), hlast, ?_⟩
  exact hne (by decide +kernel) (by decide +kernel) (by decide)

end SiteCompiler.Template
