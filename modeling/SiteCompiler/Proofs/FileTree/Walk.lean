import SiteCompiler.FileTree.Walk
import SiteCompiler.Proofs.OsText
import SiteCompiler.Proofs.Sequence
set_option autoImplicit false

/-! # Walking to a file

A walk along one ordinary name ends at the file of this name, whose text is then what is read from
the path (`readText_eq_ok_iff`). Where a walk ends at a name, links followed or not, something of
this name stands where the walk without it ends (`endsBeside_walk`); and what stands in the
directory at which a walk ends is reached by one name more (`walk_append_of_entry`).
-/

namespace SiteCompiler.FileTree

/-- A name that a walk looks up as it stands. -/
def IsOrdinary (name : OsText) : Prop :=
  name ≠ "." ∧ name ≠ ".." ∧ name.size ≤ nameLimit ∧ isUnnameable name = false

instance : DecidablePred IsOrdinary := fun _ => inferInstanceAs (Decidable (_ ∧ _ ∧ _ ∧ _))

variable {tree : FileTree} {links : Nat} {here : Location} {name : OsText}

theorem walk_file {bytes : ByteArray} (hname : IsOrdinary name)
    (h : tree.entry? (here ++ [name]) = some (.file bytes)) :
    tree.walk links here [name] = .ok (here ++ [name]) := by
  obtain ⟨hdot, hdots, hlength, hnul⟩ := hname
  cases links <;>
    rw [walk, walkVia, if_neg hdot, if_neg hdots, if_neg (Nat.not_lt.2 hlength), hnul, h] <;> rfl

/-! ## The last step of a walk -/

section

variable {loc : Location} {names : List OsText}
variable {follow : Location → List OsText → Except FileError Location}

/-- What one name of a walk does: it leads on to another place, or through a link, or nowhere that
a further name could be looked up. -/
theorem walkVia_cons_cases (tree : FileTree)
    (follow : Location → List OsText → Except FileError Location) (here : Location)
    (first : OsText) :
    (∃ there, ∀ rest, tree.walkVia follow here (first :: rest) = tree.walkVia follow there rest) ∨
      (∃ there target, ∀ rest,
        tree.walkVia follow here (first :: rest) = follow there (target ++ rest)) ∨
      (∀ rest, rest ≠ [] → ∃ e, tree.walkVia follow here (first :: rest) = .error e) ∧
        ∀ loc, tree.walkVia follow here [first] = .ok loc →
          ∃ bytes, tree.entry? loc = some (.file bytes) := by
  by_cases hdot : first = "."
  · exact Or.inl ⟨here, fun rest => by rw [walkVia, if_pos hdot]⟩
  by_cases hdots : first = ".."
  · exact Or.inl ⟨here.dropLast, fun rest => by rw [walkVia, if_neg hdot, if_pos hdots]⟩
  by_cases hlength : nameLimit < first.size
  · have herror : ∀ rest, tree.walkVia follow here (first :: rest) = .error .nameTooLong :=
      fun rest => by rw [walkVia, if_neg hdot, if_neg hdots, if_pos hlength]
    refine Or.inr (Or.inr ⟨fun rest _ => ⟨_, herror rest⟩, fun loc hloc => ?_⟩)
    rw [herror] at hloc
    cases hloc
  by_cases hnul : isUnnameable first = true
  · have herror : ∀ rest, tree.walkVia follow here (first :: rest) = .error .notFound :=
      fun rest => by rw [walkVia, if_neg hdot, if_neg hdots, if_neg hlength, if_pos hnul]
    refine Or.inr (Or.inr ⟨fun rest _ => ⟨_, herror rest⟩, fun loc hloc => ?_⟩)
    rw [herror] at hloc
    cases hloc
  cases hentry : tree.entry? (here ++ [first]) with
  | none =>
      have herror : ∀ rest, tree.walkVia follow here (first :: rest) = .error .notFound := by
        intro rest
        rw [walkVia, if_neg hdot, if_neg hdots, if_neg hlength, if_neg hnul, hentry]
      refine Or.inr (Or.inr ⟨fun rest _ => ⟨_, herror rest⟩, fun loc hloc => ?_⟩)
      rw [herror] at hloc
      cases hloc
  | some entry =>
      cases entry with
      | directory =>
          refine Or.inl ⟨here ++ [first], fun rest => ?_⟩
          rw [walkVia, if_neg hdot, if_neg hdots, if_neg hlength, if_neg hnul, hentry]
      | file bytes =>
          have hstep : ∀ rest, tree.walkVia follow here (first :: rest)
              = if rest = [] then .ok (here ++ [first]) else .error .notADirectory := by
            intro rest
            rw [walkVia, if_neg hdot, if_neg hdots, if_neg hlength, if_neg hnul, hentry]
          refine Or.inr (Or.inr ⟨fun rest hrest => ⟨_, (hstep rest).trans (if_neg hrest)⟩, ?_⟩)
          intro loc hloc
          rw [hstep, if_pos rfl] at hloc
          cases hloc
          exact ⟨bytes, hentry⟩
      | link target =>
          refine Or.inr (Or.inl ⟨if Path.startsAtRoot target then [] else here,
            (Path.mk target).segments, fun rest => ?_⟩)
          rw [walkVia, if_neg hdot, if_neg hdots, if_neg hlength, if_neg hnul, hentry]

/-- A walk ends where it ends without its last name, or at something that stands there under this
name. -/
def EndsBeside (tree : FileTree) (outcome : Except FileError Location) (name : OsText) : Prop :=
  ∃ above, outcome = .ok above ∧ (tree.entry? (above ++ [name])).isSome = true

theorem endsBeside_walkVia (hname : name ≠ "." ∧ name ≠ "..")
    (hfollow : ∀ here names, follow here (names ++ [name]) = .ok loc →
      EndsBeside tree (follow here names) name)
    (h : tree.walkVia follow here (names ++ [name]) = .ok loc) :
    EndsBeside tree (tree.walkVia follow here names) name := by
  induction names generalizing here with
  | nil =>
      refine ⟨here, by rw [walkVia], ?_⟩
      rw [List.nil_append, walkVia, if_neg hname.1, if_neg hname.2] at h
      cases hentry : tree.entry? (here ++ [name]) with
      | none =>
          rw [hentry] at h
          split at h
          · cases h
          · split at h <;> cases h
      | some entry => rfl
  | cons first names ih =>
      rw [List.cons_append] at h
      rcases walkVia_cons_cases tree follow here first with
        ⟨there, hstep⟩ | ⟨there, target, hstep⟩ | hstep
      · rw [hstep] at h ⊢
        exact ih h
      · rw [hstep, ← List.append_assoc] at h
        rw [hstep]
        exact hfollow there _ h
      · obtain ⟨e, he⟩ := hstep.1 (names ++ [name]) (by simp)
        rw [he] at h
        cases h

theorem endsBeside_walk {links : Nat} (hname : name ≠ "." ∧ name ≠ "..")
    (h : tree.walk links here (names ++ [name]) = .ok loc) :
    EndsBeside tree (tree.walk links here names) name := by
  induction links generalizing here names with
  | zero =>
      rw [walk] at h ⊢
      exact endsBeside_walkVia hname (fun _ _ hnot => by cases hnot) h
  | succ links ih =>
      rw [walk] at h ⊢
      exact endsBeside_walkVia hname (fun _ _ => ih) h

/-! ## One step more -/

/-- Where a walk ends at a directory, it goes on with what stands in it. -/
theorem walkVia_append_of_entry {entry : Entry} (hname : IsOrdinary name)
    (hdirectory : tree.entry? loc = some .directory)
    (hentry : tree.entry? (loc ++ [name]) = some entry) (hlink : ∀ target, entry ≠ .link target)
    (hfollow : ∀ here names, follow here names = .ok loc →
      follow here (names ++ [name]) = .ok (loc ++ [name]))
    (h : tree.walkVia follow here names = .ok loc) :
    tree.walkVia follow here (names ++ [name]) = .ok (loc ++ [name]) := by
  obtain ⟨hdot, hdots, hlength, hnul⟩ := hname
  induction names generalizing here with
  | nil =>
      rw [walkVia] at h
      cases h
      rw [List.nil_append, walkVia, if_neg hdot, if_neg hdots, if_neg (Nat.not_lt.2 hlength), hnul,
        if_neg Bool.false_ne_true, hentry]
      cases entry with
      | file bytes => rfl
      | directory => rfl
      | link target => exact absurd rfl (hlink target)
  | cons first names ih =>
      rw [List.cons_append]
      rcases walkVia_cons_cases tree follow here first with
        ⟨there, hstep⟩ | ⟨there, target, hstep⟩ | ⟨herror, hfile⟩
      · rw [hstep] at h ⊢
        exact ih h
      · rw [hstep] at h ⊢
        rw [← List.append_assoc]
        exact hfollow there _ h
      · -- The walk ends at a file, or not at all.
        by_cases hnames : names = []
        · rw [hnames] at h
          obtain ⟨bytes, hbytes⟩ := hfile loc h
          rw [hdirectory] at hbytes
          cases hbytes
        · obtain ⟨e, he⟩ := herror names hnames
          rw [he] at h
          cases h

theorem walk_append_of_entry {links : Nat} {entry : Entry} (hname : IsOrdinary name)
    (hdirectory : tree.entry? loc = some .directory)
    (hentry : tree.entry? (loc ++ [name]) = some entry) (hlink : ∀ target, entry ≠ .link target)
    (h : tree.walk links here names = .ok loc) :
    tree.walk links here (names ++ [name]) = .ok (loc ++ [name]) := by
  induction links generalizing here names with
  | zero =>
      rw [walk] at h ⊢
      exact walkVia_append_of_entry hname hdirectory hentry hlink (fun _ _ hnot => by cases hnot) h
  | succ links ih =>
      rw [walk] at h ⊢
      exact walkVia_append_of_entry hname hdirectory hentry hlink (fun _ _ => ih) h

/-- A `.` at the end of a walk does not lead away. -/
theorem walkVia_of_append_dot
    (hfollow : ∀ here names,
      follow here (names ++ [OsText.ofText "."]) = .ok loc → follow here names = .ok loc)
    (h : tree.walkVia follow here (names ++ [OsText.ofText "."]) = .ok loc) :
    tree.walkVia follow here names = .ok loc := by
  induction names generalizing here with
  | nil =>
      rw [List.nil_append, walkVia, if_pos rfl] at h
      exact h
  | cons first names ih =>
      rw [List.cons_append] at h
      rcases walkVia_cons_cases tree follow here first with
        ⟨there, hstep⟩ | ⟨there, target, hstep⟩ | ⟨herror, -⟩
      · rw [hstep] at h ⊢
        exact ih h
      · rw [hstep, ← List.append_assoc] at h
        rw [hstep]
        exact hfollow there _ h
      · obtain ⟨e, he⟩ := herror (names ++ [OsText.ofText "."]) (by simp)
        rw [he] at h
        cases h

theorem walk_of_append_dot {links : Nat}
    (h : tree.walk links here (names ++ [OsText.ofText "."]) = .ok loc) :
    tree.walk links here names = .ok loc := by
  induction links generalizing here names with
  | zero =>
      rw [walk] at h ⊢
      exact walkVia_of_append_dot (fun _ _ hnot => by cases hnot) h
  | succ links ih =>
      rw [walk] at h ⊢
      exact walkVia_of_append_dot (fun _ _ => ih) h

end

/-! ## Reading at a known location -/

variable {path : Path} {loc : Location}

/-- A path of one name is that file in the root. -/
theorem locate_of_segments {bytes : ByteArray} (hsegments : path.segments = [name])
    (hname : IsOrdinary name) (hentry : tree.entry? [name] = some (.file bytes)) :
    tree.locate path = .ok [name] := by
  have hraw : path.raw.isEmpty = false := by
    rw [Bool.eq_false_iff]
    intro hempty
    obtain ⟨raw⟩ := path
    obtain rfl : raw = "" := OsText.isEmpty_iff.1 hempty
    have hnil : Path.segments ⟨""⟩ = [] := by decide +kernel
    rw [hnil] at hsegments
    cases hsegments
  rw [locate, hraw, hsegments]
  exact walk_file hname hentry

theorem find?_of_locate (h : tree.locate path = .ok loc) : tree.find? path = tree.entry? loc := by
  rw [find?, h]

theorem fromUTF8?_toUTF8 (text : String) : String.fromUTF8? text.toUTF8 = some text := by
  have hvalid : text.toUTF8.IsValidUTF8 := text.isValidUTF8
  rw [String.fromUTF8?, dif_pos hvalid]
  rfl

theorem readBytes_eq_ok_iff {bytes : ByteArray} : tree.readBytes path = .ok bytes ↔
    ∃ loc, tree.locate path = .ok loc ∧ tree.entry? loc = some (.file bytes) := by
  rw [readBytes, Sequence.bind_eq_ok_iff]
  refine exists_congr fun loc => and_congr_right fun _ => ?_
  split
  · next found hentry => rw [hentry, Except.ok.injEq, Option.some.injEq, Entry.file.injEq]
  · next hentry => rw [hentry]; exact iff_of_false nofun nofun
  · next hfile _ => exact iff_of_false nofun (hfile bytes)

/-- What is read from a path is the text of the file that the path leads to. -/
theorem readText_eq_ok_iff {text : String} : tree.readText path = .ok text ↔
    ∃ loc bytes, tree.locate path = .ok loc ∧ tree.entry? loc = some (.file bytes) ∧
      String.fromUTF8? bytes = some text := by
  rw [readText, Sequence.bind_eq_ok_iff]
  constructor
  · rintro ⟨bytes, hbytes, h⟩
    obtain ⟨loc, hlocate, hentry⟩ := readBytes_eq_ok_iff.1 hbytes
    split at h
    · next found hfound =>
        cases h
        exact ⟨loc, bytes, hlocate, hentry, hfound⟩
    · cases h
  · rintro ⟨loc, bytes, hlocate, hentry, htext⟩
    refine ⟨bytes, readBytes_eq_ok_iff.2 ⟨loc, hlocate, hentry⟩, ?_⟩
    rw [htext]

theorem readText_of_locate {text : String} (h : tree.locate path = .ok loc)
    (hentry : tree.entry? loc = some (.file text.toUTF8)) : tree.readText path = .ok text :=
  readText_eq_ok_iff.2 ⟨loc, text.toUTF8, h, hentry, fromUTF8?_toUTF8 text⟩

end SiteCompiler.FileTree
