import SiteCompiler.Proofs.Candidate.Registry
import Mathlib.Data.Finset.Card
set_option autoImplicit false

/-! # A registry and its history

A registry is a map from names to candidates that keeps its entries in the order in which their
names came. Written out with its keys (`Entries`), it takes a candidate in by one pass, in which a
new value takes the place of the old one and the old one is handed back (`Entries.put`). The keys are
then the names of the candidates, so they need not be kept, and what is handed back is what was
registered before (`put_keyed`).

After any number of candidates, some of one name, the place of a name tells when it came first, and
what stands there is what came last (`ofList_records`). The owner of a chunk is looked for among
what stands there, so a text that has been replaced has no owner any more.
-/

namespace SiteCompiler

/-! ## A map that keeps its order -/

/-- Candidates under their keys, each key once, in the order in which the keys came. -/
abbrev Entries := List (String × Candidate)

namespace Entries

/-- Puts a candidate under a key and hands back what stood there. A new key goes to the end. -/
def put (key : String) (candidate : Candidate) : Entries → Option Candidate × Entries
  | [] => (none, [(key, candidate)])
  | (other, old) :: rest =>
      if other = key then (some old, (other, candidate) :: rest)
      else ((put key candidate rest).1, (other, old) :: (put key candidate rest).2)

/-- The entries after candidates were put in one after another, each under its name. -/
def ofList (candidates : List Candidate) : Entries :=
  candidates.foldl (fun entries c => (put c.name c entries).2) []

theorem ofList_concat (cs : List Candidate) (c : Candidate) :
    ofList (cs ++ [c]) = (put c.name c (ofList cs)).2 := by
  rw [ofList, List.foldl_append]
  rfl

end Entries

namespace Registry

/-- The candidates of a registry under their names. -/
def keyed (registry : Registry) : Entries := registry.candidates.map fun c => (c.name, c)

theorem insert_cons_of_eq {first candidate : Candidate} {rest : List Candidate}
    (hname : first.name = candidate.name) (hrest : candidate.name ∉ names ⟨rest⟩) :
    insert ⟨first :: rest⟩ candidate = ⟨candidate :: rest⟩ := by
  have hsame : ∀ c ∈ rest, (if c.name = candidate.name then candidate else c) = id c := by
    intro c hc
    refine if_neg fun heq => hrest ?_
    rw [← heq]
    exact List.mem_map_of_mem hc
  rw [insert, if_pos (by simp [contains, hname])]
  simp [hname, List.map_congr_left hsame]

theorem insert_cons_of_ne {first candidate : Candidate} (rest : List Candidate)
    (hname : first.name ≠ candidate.name) :
    insert ⟨first :: rest⟩ candidate = ⟨first :: (insert ⟨rest⟩ candidate).candidates⟩ := by
  have hcontains : contains ⟨first :: rest⟩ candidate.name = contains ⟨rest⟩ candidate.name := by
    simp [contains, hname]
  rw [insert, insert, hcontains]
  split <;> simp [hname]

/-- **One pass does what a look-up and an insertion do.** -/
theorem put_keyed {registry : Registry} (hnodup : registry.names.Nodup) (candidate : Candidate) :
    registry.keyed.put candidate.name candidate
      = (registry.get? candidate.name, (registry.insert candidate).keyed) := by
  obtain ⟨candidates⟩ := registry
  induction candidates with
  | nil => rfl
  | cons first rest ih =>
      -- An insertion goes through all candidates, but a name occurs once, so none behind the first
      -- one with that name changes.
      obtain ⟨hfirst, hrest⟩ := List.nodup_cons.1 hnodup
      by_cases hname : first.name = candidate.name
      · rw [insert_cons_of_eq hname (hname ▸ hfirst)]
        simp [keyed, Entries.put, get?, hname]
      · have hput := ih hrest
        rw [keyed] at hput
        rw [insert_cons_of_ne rest hname]
        simp [keyed, Entries.put, get?, hname, hput]

theorem lookup_keyed (registry : Registry) (name : String) :
    registry.keyed.lookup name = registry.get? name := by
  obtain ⟨candidates⟩ := registry
  induction candidates with
  | nil => rfl
  | cons first rest ih =>
      rw [keyed, get?] at ih ⊢
      rw [List.map_cons, List.lookup_cons, List.find?_cons, ih, Bool.beq_comm]

/-! ## The history of a registry -/

section History

variable (cs : List Candidate)

/-- What was registered last under a name. -/
def lastNamed (name : String) : Option Candidate := (cs.filter fun c => c.name == name).getLast?

/-- What was registered last under a name is in the layer and has the text as its critical
fragment. -/
def NowHas (layer : Layer) (text name : String) : Prop :=
  ∃ c, lastNamed cs name = some c ∧ CanOwn layer text c

/-- A registry, and the map that it stands for, after candidates were registered in order. -/
structure Records (registry : Registry) (entries : Entries) : Prop where
  /-- A name stands where it was registered first. -/
  names_eq : registry.names = (cs.map Candidate.name).eraseDups
  /-- A name stands for what was registered last. -/
  get?_eq : ∀ name, registry.get? name = lastNamed cs name
  lookup_eq : ∀ name, entries.lookup name = registry.get? name
  values_eq : entries.map Prod.snd = registry.candidates
  keys_eq : ∀ entry ∈ entries, entry.1 = entry.2.name
  /-- What the next candidate takes the place of is handed back. -/
  put_eq : ∀ c, entries.put c.name c = (registry.get? c.name, (registry.insert c).keyed)
  size_eq : registry.size = (cs.map Candidate.name).toFinset.card
  /-- The owner of a text is the first name that now stands for it. -/
  owner_iff : ∀ layer text name, registry.criticalOwner? layer text = some name ↔
    ∃ before after, (cs.map Candidate.name).eraseDups = before ++ name :: after ∧
      NowHas cs layer text name ∧ ∀ other ∈ before, ¬ NowHas cs layer text other

variable {cs}

theorem nodup_names_ofList (cs : List Candidate) : (ofList cs).names.Nodup := by
  rw [names_ofList]
  exact FirstOccurrence.nodup_eraseDups _

theorem ofList_eq_keyed (cs : List Candidate) : Entries.ofList cs = (ofList cs).keyed := by
  induction cs using List.reverseRecOn with
  | nil => rfl
  | append_singleton cs c ih =>
      rw [Entries.ofList_concat, ih, put_keyed (nodup_names_ofList cs), ofList_concat]

theorem size_ofList (cs : List Candidate) :
    (ofList cs).size = (cs.map Candidate.name).toFinset.card := by
  have hmem : (ofList cs).names.toFinset = (cs.map Candidate.name).toFinset := by
    ext name
    rw [List.mem_toFinset, List.mem_toFinset, names_ofList, List.mem_eraseDups]
  rw [← hmem, List.toFinset_card_of_nodup (nodup_names_ofList cs), names, List.length_map]
  rfl

/-- What a candidate of the registry is, its name now stands for. -/
theorem nowHas_name_iff {candidate : Candidate}
    (h : candidate ∈ (ofList cs).candidates) (layer : Layer) (text : String) :
    NowHas cs layer text candidate.name ↔ CanOwn layer text candidate := by
  have hget := get?_of_mem (nodup_names_ofList cs) h
  rw [get?_ofList] at hget
  rw [NowHas, lastNamed, hget]
  simp

/-- The owner of a text is found among what the names now stand for. -/
theorem criticalOwner?_ofList_iff {layer : Layer} {text name : String} :
    (ofList cs).criticalOwner? layer text = some name ↔
      ∃ before after, (ofList cs).names = before ++ name :: after ∧
        NowHas cs layer text name ∧ ∀ other ∈ before, ¬ NowHas cs layer text other := by
  rw [criticalOwner?_eq_some_iff]
  constructor
  · rintro ⟨c, ⟨hcan, before, after, heq, hfirst⟩, rfl⟩
    have hmem {b : Candidate} (hb : b ∈ before) : b ∈ (ofList cs).candidates := by
      rw [heq]
      exact List.mem_append_left _ hb
    refine ⟨before.map Candidate.name, after.map Candidate.name, ?_,
      (nowHas_name_iff (by simp [heq]) layer text).2 hcan, ?_⟩
    · rw [names, heq, List.map_append, List.map_cons]
    · intro other hother
      obtain ⟨b, hb, rfl⟩ := List.mem_map.1 hother
      rw [nowHas_name_iff (hmem hb)]
      exact hfirst b hb
  · rintro ⟨before, after, heq, hhas, hfirst⟩
    obtain ⟨bs, rest, hcandidates, rfl, hrest⟩ := List.map_eq_append_iff.1 heq
    obtain ⟨c, as, rfl, rfl, rfl⟩ := List.map_eq_cons_iff.1 hrest
    refine ⟨c, ⟨(nowHas_name_iff (by simp [hcandidates]) layer text).1 hhas, bs, as, hcandidates,
      fun b hb => ?_⟩, rfl⟩
    have hnot := hfirst b.name (List.mem_map_of_mem hb)
    rwa [nowHas_name_iff (by simp [hcandidates, hb])] at hnot

/-- **A registry tells its history**: the order of names is that of their first registrations, and
what they stand for is their last. -/
theorem ofList_records (cs : List Candidate) :
    Records cs (ofList cs) (Entries.ofList cs) where
  names_eq := names_ofList cs
  get?_eq := get?_ofList cs
  lookup_eq := by
    intro name
    rw [ofList_eq_keyed, lookup_keyed]
  values_eq := by
    rw [ofList_eq_keyed, keyed, List.map_map]
    exact List.map_id _
  keys_eq := by
    intro entry hentry
    rw [ofList_eq_keyed] at hentry
    obtain ⟨c, -, rfl⟩ := List.mem_map.1 hentry
    rfl
  put_eq := by
    intro c
    rw [ofList_eq_keyed, put_keyed (nodup_names_ofList cs)]
  size_eq := size_ofList cs
  owner_iff := by
    intro layer text name
    rw [criticalOwner?_ofList_iff, names_ofList]

end History

end Registry

end SiteCompiler
