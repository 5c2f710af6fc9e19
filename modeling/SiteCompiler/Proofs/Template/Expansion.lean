import SiteCompiler.Template.Expand
import SiteCompiler.Proofs.Component.Source
import SiteCompiler.Proofs.Sequence
import Mathlib.Data.List.Nodup
set_option autoImplicit false

/-! # Expansion as one recursion with a guard

An expansion goes through the segments of a document from the left and stops at the first error.
What it does with a component depends on two things only: whether the component may be entered, and
how its template is expanded. `fillDocument` has both as parameters. The expansion of a site takes
the chain of components for the first (`expandWithin_succ`); the *free* expansion enters everything
and has only its depth to stop it (`expandFreely_succ`).

Two expansions agree where their parameters do (`fillAll_congr_unless`). From this follows that a
greater depth changes nothing once the depth was enough, and that a free expansion goes the way of
a guarded one up to the first repeated component.
-/

namespace SiteCompiler.Template

open Component

variable (tree : FileTree) (templatesDir : Path)

/-- What stands in place of a segment. A component is entered, its template is loaded and
expanded. -/
def fillSegment (enter : ComponentRef → Except CompileError Unit)
    (expand : ComponentRef → String → Except CompileError String) :
    Segment → Except CompileError String
  | .text source => .ok (String.ofList source)
  | .component ref _ => do
      enter ref
      let template ← load tree templatesDir ref
      expand ref template

/-- A document with its components filled in. -/
def fillDocument (enter : ComponentRef → Except CompileError Unit)
    (expand : ComponentRef → String → Except CompileError String) (html : String) :
    Except CompileError String :=
  ((segments html).mapM (fillSegment tree templatesDir enter expand)).map String.join

/-- A component may be entered if it is not in the chain. -/
def enterUnlessIn (chain : List String) (ref : ComponentRef) : Except CompileError Unit :=
  if chain.contains ref.componentName then .error (.circular ref.componentName chain) else .ok ()

/-- Any component may be entered. -/
def enterAlways (_ : ComponentRef) : Except CompileError Unit := .ok ()

/-- The expansion of a document without a look at the chain of components, at most `depth` levels
deep. -/
def expandFreely : Nat → String → Except CompileError String
  | 0, _ => .error .tooDeep
  | depth + 1, html =>
      fillDocument tree templatesDir enterAlways (fun _ template => expandFreely depth template) html

variable {tree templatesDir}

theorem expandWithin_succ (depth : Nat) (chain : List String) (html : String) :
    expandWithin tree templatesDir (depth + 1) chain html =
      fillDocument tree templatesDir (enterUnlessIn chain)
        (fun ref template =>
          expandWithin tree templatesDir depth (chain ++ [ref.componentName]) template) html := by
  rw [expandWithin, fillDocument]
  refine Sequence.mapM_bind_pure (fun segment => ?_) String.join (segments html)
  cases segment with
  | text source => rfl
  | component ref source =>
      simp only [fillSegment, enterUnlessIn]
      split <;> rfl

theorem expandFreely_succ (depth : Nat) (html : String) :
    expandFreely tree templatesDir (depth + 1) html =
      fillDocument tree templatesDir enterAlways
        (fun _ template => expandFreely tree templatesDir depth template) html := rfl

/-! ## Where a run ends -/

section Ends

variable {enter : ComponentRef → Except CompileError Unit}
  {expand : ComponentRef → String → Except CompileError String} {html : String} {ref : ComponentRef}
  {source : List Char} {e : CompileError}

/-- A document is filled in if all its segments are. -/
theorem fillDocument_eq_ok_iff {out : String} :
    fillDocument tree templatesDir enter expand html = .ok out ↔ ∃ parts,
      (segments html).mapM (fillSegment tree templatesDir enter expand) = .ok parts ∧
        out = String.join parts := by
  rw [fillDocument, Sequence.map_eq_ok_iff]
  exact exists_congr fun parts => and_congr_right fun _ => eq_comm

theorem fillSegment_component_eq_ok {part : String}
    (h : fillSegment tree templatesDir enter expand (.component ref source) = .ok part) :
    enter ref = .ok () ∧ ∃ template, load tree templatesDir ref = .ok template ∧
      expand ref template = .ok part := by
  simp only [fillSegment, Sequence.bind_eq_ok_iff] at h
  obtain ⟨⟨⟩, henter, template, hload, hexpand⟩ := h
  exact ⟨henter, template, hload, hexpand⟩

theorem fillSegment_component_eq_error
    (h : fillSegment tree templatesDir enter expand (.component ref source) = .error e) :
    enter ref = .error e ∨ enter ref = .ok () ∧
      (load tree templatesDir ref = .error e ∨ ∃ template,
        load tree templatesDir ref = .ok template ∧ expand ref template = .error e) := by
  simp only [fillSegment, Sequence.bind_eq_error_iff] at h
  rcases h with henter | ⟨⟨⟩, henter, hload⟩
  · exact Or.inl henter
  · exact Or.inr ⟨henter, hload⟩

/-- An error arises at a component: it may not be entered, its template cannot be loaded, or its
template cannot be expanded. All segments before it are filled in. -/
theorem fillDocument_eq_error (h : fillDocument tree templatesDir enter expand html = .error e) :
    ∃ before ref source after parts, segments html = before ++ .component ref source :: after ∧
      before.mapM (fillSegment tree templatesDir enter expand) = .ok parts ∧
      (enter ref = .error e ∨ enter ref = .ok () ∧
        (load tree templatesDir ref = .error e ∨ ∃ template,
          load tree templatesDir ref = .ok template ∧ expand ref template = .error e)) := by
  rw [fillDocument, Sequence.map_eq_error_iff] at h
  obtain ⟨before, segment, after, parts, hsegments, hbefore, hsegment⟩ :=
    Sequence.mapM_eq_error_iff.1 h
  cases segment with
  | text source => cases hsegment
  | component ref source =>
      exact ⟨before, ref, source, after, parts, hsegments, hbefore,
        fillSegment_component_eq_error hsegment⟩

end Ends

theorem enterUnlessIn_eq_ok_iff {chain : List String} {ref : ComponentRef} :
    enterUnlessIn chain ref = .ok () ↔ ref.componentName ∉ chain := by
  simp [enterUnlessIn]

theorem enterUnlessIn_eq_error_iff {chain : List String} {ref : ComponentRef} {e : CompileError} :
    enterUnlessIn chain ref = .error e ↔
      ref.componentName ∈ chain ∧ e = .circular ref.componentName chain := by
  rw [enterUnlessIn]
  split
  · next hmem => simpa [eq_comm] using fun _ => List.contains_iff_mem.1 hmem
  · next hmem => simpa using fun hmem' => absurd (List.contains_iff_mem.2 hmem') hmem

/-- A component that may be entered has a name that is new to the chain. -/
theorem nodup_append_of_enters {chain : List String} {ref : ComponentRef} (hnodup : chain.Nodup)
    (h : enterUnlessIn chain ref = .ok ()) : (chain ++ [ref.componentName]).Nodup := by
  rw [← List.concat_eq_append]
  exact hnodup.concat (enterUnlessIn_eq_ok_iff.1 h)

/-- Loading a template fails because there is none or because it cannot be read. -/
theorem load_eq_error {ref : ComponentRef} {e : CompileError}
    (h : load tree templatesDir ref = .error e) :
    (∃ reason, e = .unresolved reason) ∨ ∃ path reason, e = .unreadable path reason := by
  unfold load at h
  split at h
  · next reason _ =>
      cases h
      exact Or.inl ⟨reason, rfl⟩
  · next path _ =>
      split at h
      · next reason _ =>
          cases h
          exact Or.inr ⟨path, reason, rfl⟩
      · cases h

/-! ## Runs that agree -/

section Congruence

variable (bad : CompileError → Prop) {enter enter' : ComponentRef → Except CompileError Unit}
  {expand expand' : ComponentRef → String → Except CompileError String}

theorem fillSegment_congr_unless {segment : Segment}
    (henter : ∀ ref, (∀ e, enter' ref = .error e → ¬ bad e) → enter ref = enter' ref)
    (hexpand : ∀ ref template, (∀ e, expand' ref template = .error e → ¬ bad e) →
      expand ref template = expand' ref template)
    (h : ∀ e, fillSegment tree templatesDir enter' expand' segment = .error e → ¬ bad e) :
    fillSegment tree templatesDir enter expand segment
      = fillSegment tree templatesDir enter' expand' segment := by
  cases segment with
  | text source => rfl
  | component ref source =>
      simp only [fillSegment] at h ⊢
      have hsame : enter ref = enter' ref := by
        refine henter ref fun e he => h e ?_
        rw [he]
        rfl
      rw [hsame]
      cases hent : enter' ref with
      | error e => rfl
      | ok u =>
          rw [hent] at h
          cases hload : load tree templatesDir ref with
          | error e => rfl
          | ok template =>
              rw [hload] at h
              exact hexpand ref template h

/-- Two runs are the same if their parameters are, as far as those do not end in one of the errors
that are left out. -/
theorem fillAll_congr_unless {segments : List Segment}
    (henter : ∀ ref, (∀ e, enter' ref = .error e → ¬ bad e) → enter ref = enter' ref)
    (hexpand : ∀ ref template, (∀ e, expand' ref template = .error e → ¬ bad e) →
      expand ref template = expand' ref template)
    (h : ∀ e, segments.mapM (fillSegment tree templatesDir enter' expand') = .error e → ¬ bad e) :
    segments.mapM (fillSegment tree templatesDir enter expand)
      = segments.mapM (fillSegment tree templatesDir enter' expand') :=
  Sequence.mapM_congr_unless (fun _ _ => fillSegment_congr_unless bad henter hexpand) h

theorem fillDocument_congr_unless {html : String}
    (henter : ∀ ref, (∀ e, enter' ref = .error e → ¬ bad e) → enter ref = enter' ref)
    (hexpand : ∀ ref template, (∀ e, expand' ref template = .error e → ¬ bad e) →
      expand ref template = expand' ref template)
    (h : ∀ e, fillDocument tree templatesDir enter' expand' html = .error e → ¬ bad e) :
    fillDocument tree templatesDir enter expand html
      = fillDocument tree templatesDir enter' expand' html := by
  rw [fillDocument, fillDocument, fillAll_congr_unless bad henter hexpand]
  intro e he
  exact h e (Sequence.map_eq_error_iff.2 he)

end Congruence

/-! ## Depth -/

/-- A greater depth changes nothing once the depth was enough, for any expansion that fills in each
document one level down and carries a state on the way. -/
theorem expansion_eq_of_le {State : Type} {enter : State → ComponentRef → Except CompileError Unit}
    (next : State → ComponentRef → State)
    (expand : Nat → State → String → Except CompileError String)
    (hzero : ∀ state html, expand 0 state html = .error .tooDeep)
    (hsucc : ∀ depth state html, expand (depth + 1) state html =
      fillDocument tree templatesDir (enter state)
        (fun ref template => expand depth (next state ref) template) html)
    {depth deeper : Nat} (hle : depth ≤ deeper) (state : State) {html : String}
    (h : expand depth state html ≠ .error .tooDeep) :
    expand deeper state html = expand depth state html := by
  induction depth generalizing deeper state html with
  | zero => exact absurd (hzero state html) h
  | succ depth ih =>
      obtain ⟨deeper, rfl⟩ : ∃ n, deeper = n + 1 := ⟨deeper - 1, by omega⟩
      rw [hsucc] at h
      rw [hsucc, hsucc]
      refine fillDocument_congr_unless (· = .tooDeep) (fun _ _ => rfl) (fun ref template he => ?_) ?_
      · exact ih (by omega) _ fun heq => he _ heq rfl
      · rintro e he rfl
        exact h he

theorem expandWithin_eq_of_le {depth deeper : Nat} (hle : depth ≤ deeper) {chain : List String}
    {html : String} (h : expandWithin tree templatesDir depth chain html ≠ .error .tooDeep) :
    expandWithin tree templatesDir deeper chain html
      = expandWithin tree templatesDir depth chain html :=
  expansion_eq_of_le (fun chain ref => chain ++ [ref.componentName]) (expandWithin tree templatesDir)
    (fun _ _ => rfl) expandWithin_succ hle chain h

theorem expandFreely_eq_of_le {depth deeper : Nat} (hle : depth ≤ deeper) {html : String}
    (h : expandFreely tree templatesDir depth html ≠ .error .tooDeep) :
    expandFreely tree templatesDir deeper html = expandFreely tree templatesDir depth html :=
  expansion_eq_of_le (fun _ _ => ()) (fun depth (_ : Unit) => expandFreely tree templatesDir depth)
    (fun _ _ => rfl) (fun depth _ => expandFreely_succ depth) hle () h

/-! ## The guard -/

/-- The error of a component that is met inside its own expansion. -/
def CompileError.IsCircular (e : CompileError) : Prop :=
  ∃ component chain, e = .circular component chain

theorem enterAlways_eq {chain : List String} {ref : ComponentRef}
    (h : ∀ e, enterUnlessIn chain ref = .error e → ¬ e.IsCircular) :
    enterAlways ref = enterUnlessIn chain ref := by
  unfold enterUnlessIn at h ⊢
  split
  · next hmem =>
      rw [if_pos hmem] at h
      exact absurd ⟨_, _, rfl⟩ (h _ rfl)
  · rfl

/-- **The chain matters only where a component is met again**: otherwise the free expansion, at the
same depth, gives the same. -/
theorem expandFreely_eq_expandWithin {depth : Nat} {chain : List String} {html : String}
    (h : ∀ e, expandWithin tree templatesDir depth chain html = .error e → ¬ e.IsCircular) :
    expandFreely tree templatesDir depth html
      = expandWithin tree templatesDir depth chain html := by
  induction depth generalizing chain html with
  | zero => rfl
  | succ depth ih =>
      rw [expandWithin_succ] at h
      rw [expandFreely_succ, expandWithin_succ]
      exact fillDocument_congr_unless CompileError.IsCircular (fun _ => enterAlways_eq)
        (fun _ _ => ih) h

end SiteCompiler.Template
