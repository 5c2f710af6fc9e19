import SiteCompiler.Path
import SiteCompiler.Proofs.OsText
import SiteCompiler.Proofs.Sequence
import Mathlib.Data.List.Induction
set_option autoImplicit false

/-! # The names of a path

Where a path leads is decided by the names between its separators. Joining a name puts it behind the
names of the directory (`names_join`), and an empty name on the way to it does not show
(`joinAll_filter_join`). Going up takes the last one away (`names_of_parent?`), and names that are
put together with separators come apart again (`pieces_intercalate`), and are joined as the path
that they make (`join_intercalate`).

A reader sees the names of a path between the same separators (`text_intercalate`), also where they
are not UTF-8.
-/

namespace SiteCompiler.Path

/-- The names between the separators of a path. -/
def names (p : Path) : List OsText := (pieces p.raw).filter (fun s : OsText => s ≠ "")

/-- Names that lead down only. -/
def GoDown (names : List OsText) : Prop := ∀ name ∈ names, name ≠ "." ∧ name ≠ ".."

instance : DecidablePred GoDown := fun _ => inferInstanceAs (Decidable (∀ _ ∈ _, _ ∧ _))

/-- A path without `.` and `..`. -/
def IsPlain (p : Path) : Prop := GoDown p.names

instance : DecidablePred IsPlain := fun p => inferInstanceAs (Decidable (GoDown p.names))

/-- A name that can stand between two separators. -/
def IsSegment (name : OsText) : Prop := name ≠ "" ∧ separator ∉ name.bytes

instance : DecidablePred IsSegment := fun _ => inferInstanceAs (Decidable (_ ∧ _))

variable {p : Path} {name s : OsText}

theorem goDown_cons {names : List OsText} :
    GoDown (name :: names) ↔ (name ≠ "." ∧ name ≠ "..") ∧ GoDown names := List.forall_mem_cons

theorem segments_eq (p : Path) :
    p.segments = if endsWithSeparator p.raw then p.names ++ [OsText.ofText "."] else p.names := rfl

/-! ## Taking a path apart -/

theorem pieces_of_not_mem (h : separator ∉ s.bytes) : pieces s = [s] := by
  rw [pieces, List.splitOn_eq_singleton h, List.map_singleton]

theorem pieces_empty : pieces "" = [""] := pieces_of_not_mem (by decide)

theorem pieces_append (before after : OsText) :
    pieces (before ++ slash ++ after) = pieces before ++ pieces after := by
  have htext : (before ++ slash ++ after).bytes = before.bytes ++ separator :: after.bytes := by
    rw [OsText.bytes_append, OsText.bytes_append, List.append_assoc]
    rfl
  rw [pieces, htext, List.splitOn_append_cons_self, List.map_append]
  rfl

theorem raw_ne_empty_of_names (h : p.names ≠ []) : p.raw ≠ "" := by
  intro hempty
  rw [names, hempty, pieces_empty] at h
  exact h rfl

theorem not_mem_of_mem_splitOn {sep : UInt8} : ∀ {cs piece : List UInt8},
    piece ∈ cs.splitOn sep → sep ∉ piece := by
  intro cs
  induction cs with
  | nil =>
      intro piece hpiece
      rw [List.splitOn_nil, List.mem_singleton] at hpiece
      rw [hpiece]
      exact List.not_mem_nil
  | cons c cs ih =>
      intro piece hpiece
      rw [List.splitOn_cons_eq_if_modifyHead] at hpiece
      by_cases hc : c = sep
      · rw [if_pos (by simpa using hc)] at hpiece
        rcases List.mem_cons.1 hpiece with rfl | hpiece
        · exact List.not_mem_nil
        · exact ih hpiece
      · rw [if_neg (by simpa using hc)] at hpiece
        -- Only the first piece of the rest has got longer, by `c`.
        cases hrest : cs.splitOn sep with
        | nil => exact absurd hrest (List.splitOn_ne_nil sep cs)
        | cons first others =>
            rw [hrest] at hpiece ih
            rcases List.mem_cons.1 hpiece with rfl | hpiece
            · intro hmem
              rcases List.mem_cons.1 hmem with heq | hmem
              · exact hc heq.symm
              · exact ih List.mem_cons_self hmem
            · exact ih (List.mem_cons_of_mem first hpiece)

theorem mem_intercalate {α : Type} {c : α} {sep piece : List α} {pieces : List (List α)}
    (hpiece : piece ∈ pieces) (hc : c ∈ piece) : c ∈ sep.intercalate pieces := by
  induction pieces with
  | nil => cases hpiece
  | cons first rest ih =>
      cases rest with
      | nil =>
          rw [List.intercalate_singleton, ← List.mem_singleton.1 hpiece]
          exact hc
      | cons next rest =>
          rw [List.intercalate_cons_cons]
          rcases List.mem_cons.1 hpiece with rfl | hpiece
          · simp [hc]
          · simp [ih hpiece]

theorem mem_of_mem_splitOn {α : Type} [DecidableEq α] {sep c : α} {cs piece : List α}
    (hpiece : piece ∈ cs.splitOn sep) (hc : c ∈ piece) : c ∈ cs := by
  have hmem : c ∈ [sep].intercalate (cs.splitOn sep) := mem_intercalate hpiece hc
  rwa [List.intercalate_splitOn] at hmem

theorem isSegment_of_mem_names (h : name ∈ p.names) : IsSegment name := by
  obtain ⟨hname, hne⟩ := List.mem_filter.1 h
  obtain ⟨piece, hpiece, rfl⟩ := List.mem_map.1 hname
  refine ⟨by simpa using hne, ?_⟩
  exact not_mem_of_mem_splitOn hpiece

/-- Names that are put together come apart again. -/
theorem pieces_intercalate {parts : List OsText} (hparts : ∀ part ∈ parts, separator ∉ part.bytes)
    (hne : parts ≠ []) : pieces (OsText.intercalate slash parts) = parts := by
  have hsplit : ([separator].intercalate (parts.map OsText.bytes)).splitOn separator
      = parts.map OsText.bytes := by
    refine List.splitOn_intercalate separator ?_ (by simpa using hne)
    intro part hpart
    obtain ⟨name, hname, rfl⟩ := List.mem_map.1 hpart
    exact hparts name hname
  show (([separator].intercalate (parts.map OsText.bytes)).splitOn separator).map OsText.mk = parts
  rw [hsplit, List.map_map]
  exact List.map_id parts

theorem intercalate_pieces (s : OsText) : OsText.intercalate slash (pieces s) = s := by
  rw [← OsText.bytes_inj, OsText.intercalate, pieces, List.map_map]
  show [separator].intercalate (List.map id (s.bytes.splitOn separator)) = s.bytes
  rw [List.map_id, List.intercalate_splitOn]

theorem filter_segments {parts : List OsText} (h : ∀ part ∈ parts, IsSegment part) :
    parts.filter (fun s : OsText => s ≠ "") = parts :=
  List.filter_eq_self.2 fun part hpart => by simpa using (h part hpart).1

theorem names_intercalate {parts : List OsText} (h : ∀ part ∈ parts, IsSegment part) :
    names ⟨OsText.intercalate slash parts⟩ = parts := by
  by_cases hne : parts = []
  · rw [hne]
    rfl
  · rw [names, pieces_intercalate (fun part hpart => (h part hpart).2) hne, filter_segments h]

/-! ## Joining -/

theorem pieces_of_endsWithSeparator (h : endsWithSeparator p.raw = true) :
    ∃ before, p.raw = before ++ slash := by
  have hlast : p.raw.bytes.getLast? = some separator := by simpa [endsWithSeparator] using h
  obtain ⟨before, hbefore⟩ := List.getLast?_eq_some_iff.1 hlast
  exact ⟨⟨before⟩, OsText.bytes_inj.1 hbefore⟩

theorem startsAtRoot_of_isSegment (h : IsSegment name) : startsAtRoot name = false := by
  rw [startsAtRoot, beq_eq_false_iff_ne]
  intro hhead
  exact h.2 (List.mem_of_head? hhead)

theorem raw_join_ne_empty (h : p.raw ≠ "") (s : OsText) : (p.join s).raw ≠ "" := by
  rw [join]
  split
  · next hroot =>
      rintro rfl
      cases hroot
  · split
    · exact fun hempty => h (OsText.append_eq_empty_iff.1 hempty).1
    · exact fun hempty => h (OsText.append_eq_empty_iff.1 (OsText.append_eq_empty_iff.1 hempty).1).1

theorem names_join (h : IsSegment name) : (p.join name).names = p.names ++ [name] := by
  have hname : (pieces name).filter (fun s : OsText => s ≠ "") = [name] := by
    rw [pieces_of_not_mem h.2]
    exact filter_segments (by simpa using h)
  rw [join, startsAtRoot_of_isSegment h, if_neg Bool.false_ne_true]
  by_cases hempty : p.raw = ""
  · rw [hempty, if_pos (by decide), names, names, hempty, pieces_empty, OsText.empty_append, hname]
    rfl
  by_cases hends : endsWithSeparator p.raw = true
  · obtain ⟨before, hbefore⟩ := pieces_of_endsWithSeparator hends
    have hp : p.names = (pieces before).filter (fun s : OsText => s ≠ "") := by
      have hpieces : pieces p.raw = pieces before ++ pieces "" := by
        rw [← pieces_append, hbefore, OsText.append_empty]
      rw [names, hpieces, List.filter_append, pieces_empty]
      simp
    rw [hends, Bool.or_true, if_pos rfl, hp, names, hbefore, pieces_append, List.filter_append,
      hname]
  · have htest : (p.raw.isEmpty || endsWithSeparator p.raw) = false := by
      rw [Bool.or_eq_false_iff]
      exact ⟨OsText.isEmpty_eq_false_iff.2 hempty, by simpa using hends⟩
    rw [htest, if_neg Bool.false_ne_true, names, pieces_append, List.filter_append, hname]
    rfl

theorem names_joinAll {parts : List OsText} (h : ∀ part ∈ parts, IsSegment part) :
    (p.joinAll parts).names = p.names ++ parts := by
  rw [joinAll]
  induction parts generalizing p with
  | nil => exact (List.append_nil _).symm
  | cons part parts ih =>
      rw [List.foldl_cons, ih fun other hother => h other (List.mem_cons_of_mem part hother),
        names_join (h part List.mem_cons_self), List.append_assoc]
      rfl

/-- Joining the empty text leads nowhere else. -/
theorem join_empty_join (h : startsAtRoot s = false) : (p.join "").join s = p.join s := by
  have hroot : startsAtRoot "" = false := by decide
  by_cases hstays : (p.raw.isEmpty || endsWithSeparator p.raw) = true
  · have hjoin : p.join "" = p := by
      rw [join, hroot, if_neg Bool.false_ne_true, if_pos hstays, OsText.append_empty]
    rw [hjoin]
  · have hjoin : p.join "" = ⟨p.raw ++ slash⟩ := by
      rw [join, hroot, if_neg Bool.false_ne_true, if_neg hstays, OsText.append_empty]
    have hends : endsWithSeparator (p.raw ++ slash) = true := by
      simp [endsWithSeparator, OsText.bytes_append, slash]
    rw [hjoin, join, join, h, if_neg Bool.false_ne_true, if_neg Bool.false_ne_true, if_neg hstays,
      hends, Bool.or_true, if_pos rfl]

/-- Empty names on the way to a name do not show in the path. -/
theorem joinAll_filter_join {parts : List OsText} (hparts : ∀ part ∈ parts, separator ∉ part.bytes)
    (h : IsSegment name) :
    (p.joinAll (parts.filter (fun s : OsText => s ≠ ""))).join name
      = (p.joinAll parts).join name := by
  induction parts generalizing p with
  | nil => rfl
  | cons part parts ih =>
      have hrest := fun other hother => hparts other (List.mem_cons_of_mem part hother)
      show _ = ((p.join part).joinAll parts).join name
      rw [← ih hrest]
      by_cases hempty : part = ""
      · rw [List.filter_cons_of_neg (by simpa using hempty), hempty]
        -- The next name that is not empty finds `p`, or `p` with a separator behind it.
        cases hnames : parts.filter (fun s : OsText => s ≠ "") with
        | nil => exact (join_empty_join (startsAtRoot_of_isSegment h)).symm
        | cons next names =>
            obtain ⟨hmem, hne⟩ := List.mem_filter.1 (hnames ▸ List.mem_cons_self)
            have hnext : IsSegment next := ⟨by simpa using hne, hrest next hmem⟩
            show ((p.join next).joinAll names).join name
              = (((p.join "").join next).joinAll names).join name
            rw [join_empty_join (startsAtRoot_of_isSegment hnext)]
      · rw [List.filter_cons_of_pos (by simpa using hempty)]
        rfl

theorem endsWithSeparator_append (before : OsText) (h : IsSegment name) :
    endsWithSeparator (before ++ name) = false := by
  have hne : name.bytes ≠ [] := by
    intro hnil
    exact h.1 (OsText.bytes_eq_nil_iff.1 hnil)
  rw [endsWithSeparator, beq_eq_false_iff_ne, OsText.bytes_append,
    List.getLast?_append_of_ne_nil _ hne]
  intro hlast
  exact h.2 (List.mem_of_getLast? hlast)

theorem endsWithSeparator_join (h : IsSegment name) :
    endsWithSeparator (p.join name).raw = false := by
  rw [join, startsAtRoot_of_isSegment h, if_neg Bool.false_ne_true]
  split
  · exact endsWithSeparator_append _ h
  · exact endsWithSeparator_append _ h

theorem endsWithSeparator_joinAll {parts : List OsText} (h : ∀ part ∈ parts, IsSegment part)
    (hne : parts ≠ []) : endsWithSeparator (p.joinAll parts).raw = false := by
  obtain ⟨before, last, rfl⟩ := (List.eq_nil_or_concat' parts).resolve_left hne
  rw [joinAll, List.foldl_append]
  exact endsWithSeparator_join (h last (by simp))

theorem isPlain_join (hp : p.IsPlain) (h : IsSegment name) (hname : name ≠ "." ∧ name ≠ "..") :
    (p.join name).IsPlain := by
  intro part hpart
  rw [names_join h] at hpart
  rcases List.mem_append.1 hpart with hpart | hpart
  · exact hp part hpart
  · rw [List.mem_singleton.1 hpart]
    exact hname

theorem isPlain_joinAll {parts : List OsText} (hp : p.IsPlain)
    (h : ∀ part ∈ parts, IsSegment part ∧ part ≠ "." ∧ part ≠ "..") :
    (p.joinAll parts).IsPlain := by
  intro name hname
  rw [names_joinAll fun part hpart => (h part hpart).1] at hname
  rcases List.mem_append.1 hname with hname | hname
  · exact hp name hname
  · exact (h name hname).2

theorem join_join (hroot : startsAtRoot s = false) (hne : s ≠ "")
    (hends : endsWithSeparator s = false) (h : IsSegment name) :
    (p.join s).join name = p.join (s ++ slash ++ name) := by
  have htext : ∀ before : OsText, endsWithSeparator (before ++ s) = false := by
    intro before
    rw [endsWithSeparator, OsText.bytes_append,
      List.getLast?_append_of_ne_nil _ fun hnil => hne (OsText.bytes_eq_nil_iff.1 hnil)]
    exact hends
  have hroot' : startsAtRoot (s ++ slash ++ name) = false := by
    rw [startsAtRoot] at hroot ⊢
    rw [OsText.append_assoc, OsText.bytes_append,
      List.head?_append_of_ne_nil _ fun hnil => hne (OsText.bytes_eq_nil_iff.1 hnil)]
    exact hroot
  -- What `s` was joined to is not empty, and does not end with a separator.
  have hjoin : ∀ before : OsText, (Path.mk (before ++ s)).join name
      = ⟨before ++ s ++ slash ++ name⟩ := by
    intro before
    have hempty : (before ++ s).isEmpty = false := by
      rw [OsText.isEmpty_eq_false_iff]
      exact fun hempty => hne (OsText.append_eq_empty_iff.1 hempty).2
    rw [join, startsAtRoot_of_isSegment h, if_neg Bool.false_ne_true, hempty, htext before,
      Bool.or_self, if_neg Bool.false_ne_true]
  have hboth : ∀ text : OsText, startsAtRoot text = false → p.join text
      = if p.raw.isEmpty || endsWithSeparator p.raw then ⟨p.raw ++ text⟩
        else ⟨p.raw ++ slash ++ text⟩ := by
    intro text htext
    rw [join, htext, if_neg Bool.false_ne_true]
  rw [hboth s hroot, hboth _ hroot']
  split
  · rw [hjoin]
    simp only [OsText.append_assoc]
  · rw [hjoin]
    simp only [OsText.append_assoc]

theorem startsAtRoot_intercalate {parts : List OsText} (h : ∀ part ∈ parts, IsSegment part) :
    startsAtRoot (OsText.intercalate slash parts) = false := by
  cases parts with
  | nil => rfl
  | cons part parts =>
      have hpart := h part List.mem_cons_self
      have hhead : ∀ rest : OsText, startsAtRoot (part ++ rest) = false := by
        intro rest
        rw [startsAtRoot, OsText.bytes_append,
          List.head?_append_of_ne_nil _ fun hnil => hpart.1 (OsText.bytes_eq_nil_iff.1 hnil)]
        exact startsAtRoot_of_isSegment hpart
      cases parts with
      | nil =>
          rw [OsText.intercalate_singleton]
          exact startsAtRoot_of_isSegment hpart
      | cons other parts =>
          rw [OsText.intercalate_cons_cons, OsText.append_assoc]
          exact hhead _

theorem endsWithSeparator_intercalate {parts : List OsText} (h : ∀ part ∈ parts, IsSegment part)
    (hne : parts ≠ []) : endsWithSeparator (OsText.intercalate slash parts) = false := by
  obtain ⟨front, last, rfl⟩ := (List.eq_nil_or_concat' parts).resolve_left hne
  have hlast : IsSegment last := h last (by simp)
  by_cases hnil : front = []
  · rw [hnil, List.nil_append, OsText.intercalate_singleton, ← OsText.empty_append (s := last)]
    exact endsWithSeparator_append "" hlast
  · rw [OsText.intercalate_append hnil (by simp), OsText.intercalate_singleton]
    exact endsWithSeparator_append _ hlast

/-- Joining names one by one is joining the path that they make. -/
theorem join_intercalate {parts : List OsText} (h : ∀ part ∈ parts, IsSegment part)
    (hne : parts ≠ []) : p.join (OsText.intercalate slash parts) = p.joinAll parts := by
  induction parts using List.reverseRecOn with
  | nil => exact absurd rfl hne
  | append_singleton front last ih =>
      have hlast : IsSegment last := h last (by simp)
      have hfront : ∀ part ∈ front, IsSegment part := fun part hpart => h part (by simp [hpart])
      by_cases hnil : front = []
      · rw [hnil, List.nil_append, OsText.intercalate_singleton]
        rfl
      · have hpieces := pieces_intercalate (fun part hpart => (hfront part hpart).2) hnil
        have htext : OsText.intercalate slash front ≠ "" := by
          intro hempty
          rw [hempty, pieces_empty] at hpieces
          rw [← hpieces] at hfront
          exact (hfront "" List.mem_cons_self).1 rfl
        rw [OsText.intercalate_append hnil (by simp), OsText.intercalate_singleton,
          ← join_join (startsAtRoot_intercalate hfront) htext
            (endsWithSeparator_intercalate hfront hnil) hlast,
          ih hfront hnil, joinAll, joinAll, List.foldl_append]
        rfl

/-! ## Extensions -/

theorem bytes_dot : ("." : OsText).bytes = [dot] := by decide

/-- A name has the extension that stands behind its last dot, unless nothing stands in front of that
dot. -/
theorem extension?_eq_some_iff {ext : OsText} : extension? name = some ext ↔
    ∃ stem : OsText, stem ≠ "" ∧ dot ∉ ext.bytes ∧ name = stem ++ ("." : OsText) ++ ext := by
  have hsplit := List.takeWhile_append_dropWhile (p := (· ≠ dot)) (l := name.bytes.reverse)
  constructor
  · intro h
    rw [extension?] at h
    generalize hback : name.bytes.reverse.dropWhile (· ≠ dot) = back at h hsplit
    generalize hfront : name.bytes.reverse.takeWhile (· ≠ dot) = front at h hsplit
    match back, h with
    | first :: b :: stem, h =>
        obtain rfl : first = dot := by
          have hhead := List.head?_dropWhile_not (fun b : UInt8 => decide (b ≠ dot))
            name.bytes.reverse
          rw [hback] at hhead
          simpa using hhead
        cases h
        refine ⟨⟨(b :: stem).reverse⟩, ?_, ?_, ?_⟩
        · intro hempty
          have hnil := OsText.bytes_eq_nil_iff.2 hempty
          simp at hnil
        · intro hmem
          rw [List.mem_reverse, ← hfront] at hmem
          simpa using List.all_eq_true.1 List.all_takeWhile dot hmem
        · rw [← OsText.bytes_inj, ← List.reverse_inj, ← hsplit]
          simp [OsText.bytes_append, bytes_dot]
  · rintro ⟨stem, hstem, hdot, rfl⟩
    have hrev : (stem ++ ("." : OsText) ++ ext).bytes.reverse
        = ext.bytes.reverse ++ dot :: stem.bytes.reverse := by
      simp [OsText.bytes_append, bytes_dot]
    have hrun : ∀ b ∈ ext.bytes.reverse, decide (b ≠ dot) = true := by
      intro b hb
      simpa using fun heq : b = dot => hdot (by simpa [heq] using hb)
    have hstem' : stem.bytes.reverse ≠ [] := by
      simpa using mt OsText.bytes_eq_nil_iff.1 hstem
    obtain ⟨b, rest, hcons⟩ := List.exists_cons_of_ne_nil hstem'
    have htake : (ext.bytes.reverse ++ dot :: stem.bytes.reverse).takeWhile (· ≠ dot)
        = ext.bytes.reverse := by
      rw [List.takeWhile_append_of_pos hrun]
      simp
    have hdrop : (ext.bytes.reverse ++ dot :: stem.bytes.reverse).dropWhile (· ≠ dot)
        = dot :: stem.bytes.reverse := by
      rw [List.dropWhile_append_of_pos hrun]
      simp
    rw [hcons] at hrev htake hdrop
    simp only [extension?, hrev, hdrop, htake, List.reverse_reverse]

/-! ## Going up -/

theorem names_of_startsAtRoot (parts : List OsText) (h : ∀ part ∈ parts, IsSegment part) :
    names ⟨slash ++ OsText.intercalate slash parts⟩ = parts := by
  have hpieces : pieces (slash ++ OsText.intercalate slash parts)
      = pieces "" ++ pieces (OsText.intercalate slash parts) := by
    rw [← pieces_append, OsText.empty_append]
  have hrest : (pieces (OsText.intercalate slash parts)).filter (fun s : OsText => s ≠ "")
      = parts :=
    names_intercalate h
  rw [names, hpieces, List.filter_append, hrest, pieces_empty]
  simp

theorem names_eq_of_isPlain (hp : p.IsPlain) :
    (pieces p.raw).filter (fun s : OsText => s ≠ "" && s ≠ ".") = p.names := by
  have hfilter : (pieces p.raw).filter (fun s : OsText => s ≠ "" && s ≠ ".")
      = p.names.filter fun s : OsText => s ≠ "." := by
    rw [names, List.filter_filter]
    exact List.filter_congr fun s _ => by rw [Bool.and_comm]
  rw [hfilter]
  exact List.filter_eq_self.2 fun name hname => by simpa using (hp name hname).1

theorem parent?_eq_none_iff (hp : p.IsPlain) : p.parent? = none ↔ p.names = [] := by
  rw [parent?, names_eq_of_isPlain hp]
  cases hrev : p.names.reverse with
  | nil => simpa using hrev
  | cons last above =>
      refine iff_of_false nofun ?_
      intro hnil
      rw [hnil] at hrev
      cases hrev

/-- One level up, the last name is gone. -/
theorem names_of_parent? {above : Path} (hp : p.IsPlain) (h : p.parent? = some above) :
    above.names = p.names.dropLast ∧ p.names ≠ [] := by
  rw [parent?, names_eq_of_isPlain hp] at h
  cases hrev : p.names.reverse with
  | nil =>
      rw [hrev] at h
      cases h
  | cons last upper =>
      rw [hrev] at h
      have hnames : p.names = upper.reverse ++ [last] := by
        rw [← List.reverse_reverse p.names, hrev, List.reverse_cons]
      have hsegments : ∀ part ∈ upper.reverse, IsSegment part := fun part hpart =>
        isSegment_of_mem_names (p := p) (by rw [hnames]; exact List.mem_append_left _ hpart)
      rw [hnames, List.dropLast_concat]
      refine ⟨?_, by simp⟩
      by_cases hroot : startsAtRoot p.raw = true
      · obtain rfl : (⟨slash ++ OsText.intercalate slash upper.reverse⟩ : Path) = above := by
          simpa [hroot] using h
        exact names_of_startsAtRoot _ hsegments
      · obtain rfl : (⟨OsText.intercalate slash upper.reverse⟩ : Path) = above := by
          simpa [hroot] using h
        exact names_intercalate hsegments

theorem isPlain_of_parent? {above : Path} (hp : p.IsPlain) (h : p.parent? = some above) :
    above.IsPlain := by
  intro name hname
  rw [(names_of_parent? hp h).1] at hname
  exact hp name (List.dropLast_subset _ hname)

/-! ## Paths for a reader -/

theorem text_append_slash (s t : OsText) : (s ++ slash ++ t).text = s.text ++ "/" ++ t.text := by
  rw [OsText.append_assoc]
  exact Text.ofBytes_append_cons (by decide) s.bytes t.bytes

theorem text_append_dot (s t : OsText) :
    (s ++ ("." : OsText) ++ t).text = s.text ++ "." ++ t.text := by
  rw [OsText.append_assoc]
  exact Text.ofBytes_append_cons (by decide) s.bytes t.bytes

/-- A reader sees the separators of a path, and no others. -/
theorem separator_mem_iff : separator ∈ s.bytes ↔ '/' ∈ s.text.toList := by
  constructor
  · intro h
    obtain ⟨before, after, hbytes⟩ := List.append_of_mem h
    have hs : s = ⟨before⟩ ++ slash ++ ⟨after⟩ := by
      rw [← OsText.bytes_inj, hbytes, OsText.append_assoc]
      rfl
    rw [hs, text_append_slash]
    simp
  · intro h
    obtain ⟨byte, hbyte, heq⟩ := Text.mem_of_mem_ofBytes h (by decide)
    have hseparator : byte = separator := UInt8.toNat_inj.1 heq.symm
    rwa [← hseparator]

theorem isSegment_ofText {text : String} (hne : text ≠ "") (htext : '/' ∉ text.toList) :
    IsSegment text := by
  refine ⟨fun hempty => hne (OsText.ofText_inj.1 hempty), ?_⟩
  rw [separator_mem_iff, OsText.text_ofText]
  exact htext

/-- A name keeps its form when a reader writes it down. -/
theorem isSegment_text (h : IsSegment name) : IsSegment name.text :=
  isSegment_ofText (mt OsText.text_eq_empty_iff.1 h.1) (mt separator_mem_iff.2 h.2)

theorem text_intercalate (parts : List OsText) :
    (OsText.intercalate slash parts).text = String.intercalate "/" (parts.map OsText.text) := by
  induction parts with
  | nil =>
      rw [OsText.intercalate_nil]
      exact OsText.text_ofText ""
  | cons part parts ih =>
      cases parts with
      | nil => rw [OsText.intercalate_singleton, List.map_singleton, String.intercalate_singleton]
      | cons next parts =>
          rw [OsText.intercalate_cons_cons, text_append_slash, ih]
          simp only [List.map_cons, String.intercalate_cons_cons]

theorem ofText_intercalate (texts : List String) :
    OsText.ofText (String.intercalate "/" texts)
      = OsText.intercalate slash (texts.map OsText.ofText) := by
  induction texts with
  | nil => exact OsText.intercalate_nil.symm
  | cons text texts ih =>
      cases texts with
      | nil => rw [List.map_singleton, OsText.intercalate_singleton, String.intercalate_singleton]
      | cons next texts =>
          rw [String.intercalate_cons_cons, OsText.ofText_append, OsText.ofText_append, ih]
          simp only [List.map_cons, OsText.intercalate_cons_cons]
          rfl

/-- What stands in front of anything that is joined to a path: nothing, or a separator ends it. -/
theorem exists_base (p : Path) : ∃ base : OsText, (base = "" ∨ ∃ before, base = before ++ slash) ∧
    ∀ s, startsAtRoot s = false → p.join s = ⟨base ++ s⟩ := by
  by_cases hstays : (p.raw.isEmpty || endsWithSeparator p.raw) = true
  · refine ⟨p.raw, ?_, fun s hs => ?_⟩
    · rw [Bool.or_eq_true, OsText.isEmpty_iff] at hstays
      exact hstays.imp_right pieces_of_endsWithSeparator
    · rw [join, hs, if_neg Bool.false_ne_true, if_pos hstays]
  · refine ⟨p.raw ++ slash, Or.inr ⟨p.raw, rfl⟩, fun s hs => ?_⟩
    rw [join, hs, if_neg Bool.false_ne_true, if_neg hstays]

/-- A reader can tell apart what is joined to a path. -/
theorem text_join_inj {s t : OsText} (hs : startsAtRoot s = false) (ht : startsAtRoot t = false)
    (heq : (p.join s).text = (p.join t).text) : s.text = t.text := by
  obtain ⟨base, hbase, hjoin⟩ := exists_base p
  rw [hjoin s hs, hjoin t ht] at heq
  rcases hbase with rfl | ⟨before, rfl⟩
  · rwa [OsText.empty_append, OsText.empty_append] at heq
  · have hboth : before.text ++ "/" ++ s.text = before.text ++ "/" ++ t.text := by
      rw [← text_append_slash, ← text_append_slash]
      exact heq
    exact (String.append_right_inj _).1 hboth

end SiteCompiler.Path
