import SiteCompiler.Proofs.Lookup
import SiteCompiler.Toml.Reader
set_option autoImplicit false

/-! # Keys are defined once

In every table of a document that is read, however it was written and however deep it stands, each
key stands once (`read?_distinct`). Every step of putting a document together keeps this: a key is
set where it stands or added at the end if it is new (`Distinct.set`), a table is taken out of a
document as a whole, and what is written as a value is put together in the same way.
-/

namespace SiteCompiler.Toml

/-- In all tables of a value the keys are distinct. -/
inductive Value.Distinct : Value → Prop
  | string (text : String) : Distinct (.string text)
  | integer (n : Int) : Distinct (.integer n)
  | float (x : Decimal.Binary64) : Distinct (.float x)
  | boolean (b : Bool) : Distinct (.boolean b)
  | dateTime : Distinct .dateTime
  | array {elements : List Value} (elements_distinct : ∀ v ∈ elements, Distinct v) :
      Distinct (.array elements)
  | table {fields : List (String × Value)} (nodup : (fields.map Prod.fst).Nodup)
      (values : ∀ field ∈ fields, Distinct field.2) : Distinct (.table fields)

theorem Value.distinct_table_iff {fields : List (String × Value)} :
    (Value.table fields).Distinct ↔
      (fields.map Prod.fst).Nodup ∧ ∀ field ∈ fields, field.2.Distinct := by
  constructor
  · rintro ⟨⟩
    constructor <;> assumption
  · exact fun h => .table h.1 h.2

/-- In all tables of a node the keys are distinct. -/
inductive Node.Distinct : Node → Prop
  | value {v : Value} (distinct : v.Distinct) : Distinct (.value v)
  | table {isImplicit isDotted : Bool} {fields : List (String × Node)}
      (nodup : (fields.map Prod.fst).Nodup) (nodes : ∀ field ∈ fields, Distinct field.2) :
      Distinct (.table isImplicit isDotted fields)
  | tables {elements : List (List (String × Node))}
      (nodup : ∀ fields ∈ elements, (fields.map Prod.fst).Nodup)
      (nodes : ∀ fields ∈ elements, ∀ field ∈ fields, Distinct field.2) :
      Distinct (.tables elements)

/-- In fields and in all tables below them the keys are distinct. -/
structure Fields.Distinct (fields : Fields) : Prop where
  nodup : (fields.map Prod.fst).Nodup
  nodes : ∀ field ∈ fields, field.2.Distinct

namespace Fields

variable {fields inner : Fields} {key : String} {node : Node}

theorem Distinct.empty : Distinct [] := ⟨List.nodup_nil, nofun⟩

theorem Distinct.lookup (h : fields.Distinct) (hlookup : fields.lookup key = some node) :
    node.Distinct := h.nodes _ (Lookup.mem_of_lookup hlookup)

theorem Distinct.table {isImplicit isDotted : Bool} :
    (Node.table isImplicit isDotted fields).Distinct ↔ fields.Distinct := by
  constructor
  · rintro ⟨⟩
    constructor <;> assumption
  · exact fun h => .table h.nodup h.nodes

theorem Distinct.tables {elements : List Fields} :
    (Node.tables elements).Distinct ↔ ∀ fields ∈ elements, Fields.Distinct fields := by
  constructor
  · rintro ⟨⟩ fields hfields
    constructor
    · next nodup _ => exact nodup fields hfields
    · next nodes => exact nodes fields hfields
  · exact fun h => .tables (fun fields hfields => (h fields hfields).nodup)
      fun fields hfields => (h fields hfields).nodes

/-- A key that is new goes to the end. -/
theorem Distinct.concat (h : fields.Distinct) (hnode : node.Distinct)
    (hkey : (fields.lookup key).isSome = false) : Fields.Distinct (fields ++ [(key, node)]) := by
  have hnew : key ∉ fields.map Prod.fst := by
    rw [← Lookup.isSome_lookup_iff, hkey]
    exact Bool.false_ne_true
  constructor
  · rw [List.map_append, List.nodup_append]
    refine ⟨h.nodup, by simp, ?_⟩
    intro other hother last hlast heq
    rw [List.map_singleton, List.mem_singleton] at hlast
    rw [heq, hlast] at hother
    exact hnew hother
  · intro field hfield
    rcases List.mem_append.1 hfield with hfield | hfield
    · exact h.nodes field hfield
    · rw [List.mem_singleton.1 hfield]
      exact hnode

theorem Distinct.set (h : fields.Distinct) (hnode : node.Distinct) (key : String) :
    (fields.set key node).Distinct := by
  rw [Fields.set]
  split
  · constructor
    · -- The key that is set stays what it was.
      have hkeys : (fields.map fun field =>
          if field.1 = key then (key, node) else field).map Prod.fst = fields.map Prod.fst := by
        rw [List.map_map]
        refine List.map_congr_left fun field _ => ?_
        by_cases hfield : field.1 = key <;> simp [hfield]
      rw [hkeys]
      exact h.nodup
    · intro field hfield
      obtain ⟨old, hold, rfl⟩ := List.mem_map.1 hfield
      split
      · exact hnode
      · exact h.nodes old hold
  · next hkey => exact h.concat hnode (Bool.eq_false_iff.2 hkey)

theorem Distinct.erase (h : fields.Distinct) (key : String) : (fields.erase key).Distinct where
  nodup := h.nodup.sublist (List.filter_sublist.map Prod.fst)
  nodes := fun field hfield => h.nodes field (List.mem_of_mem_filter hfield)

theorem Distinct.define? {v : Value} (h : fields.Distinct) (hv : v.Distinct)
    (hdefine : fields.define? key v = some inner) : inner.Distinct := by
  rw [Fields.define?] at hdefine
  split at hdefine
  · cases hdefine
  · next hkey =>
      cases hdefine
      exact h.concat (.value hv) (Bool.eq_false_iff.2 hkey)

/-! ## Tables below a key -/

section Below

variable {step : String} {elements : List Fields} {last : Fields} {isImplicit isDotted : Bool}

theorem Distinct.tableBelow (h : fields.Distinct)
    (hlookup : fields.lookup step = some (.table isImplicit isDotted inner)) : inner.Distinct :=
  Distinct.table.1 (h.lookup hlookup)

theorem Distinct.lastBelow (h : fields.Distinct)
    (hlookup : fields.lookup step = some (.tables elements))
    (hlast : elements.getLast? = some last) : last.Distinct :=
  Distinct.tables.1 (h.lookup hlookup) last (List.mem_of_getLast? hlast)

theorem Distinct.setTable (h : fields.Distinct) (hinner : inner.Distinct) :
    (fields.set step (.table isImplicit isDotted inner)).Distinct :=
  h.set (Distinct.table.2 hinner) step

/-- The last element of an array of tables can be replaced. -/
theorem Distinct.setLast (h : fields.Distinct)
    (hlookup : fields.lookup step = some (.tables elements)) (hlast : last.Distinct) :
    (fields.set step (.tables (elements.dropLast ++ [last]))).Distinct := by
  refine h.set (Distinct.tables.2 fun table htable => ?_) step
  rcases List.mem_append.1 htable with htable | htable
  · exact Distinct.tables.1 (h.lookup hlookup) table (List.dropLast_subset _ htable)
  · rw [List.mem_singleton.1 htable]
    exact hlast

end Below

/-- A change below a path keeps keys distinct if the change itself does. -/
theorem Distinct.changeAt? {change : Fields → Option Fields}
    (hchange : ∀ {before after : Fields}, before.Distinct → change before = some after →
      after.Distinct) {path : List String} (h : fields.Distinct)
    (hat : Fields.changeAt? change path fields = some inner) : inner.Distinct := by
  -- A table on the way is taken out, changed below the rest of the path and put back at its key.
  induction path generalizing fields inner with
  | nil => exact hchange h hat
  | cons step path ih =>
      rw [Fields.changeAt?] at hat
      split at hat
      · obtain ⟨below, hbelow, rfl⟩ := Option.map_eq_some_iff.1 hat
        exact h.setTable (ih .empty hbelow)
      · next hlookup =>
          obtain ⟨below, hbelow, rfl⟩ := Option.map_eq_some_iff.1 hat
          exact h.setTable (ih (h.tableBelow hlookup) hbelow)
      · next elements hlookup =>
          split at hat
          · cases hat
          · next last hlast =>
              obtain ⟨below, hbelow, rfl⟩ := Option.map_eq_some_iff.1 hat
              exact h.setLast hlookup (ih (h.lastBelow hlookup hlast) hbelow)
      · cases hat

theorem Distinct.assignBelow? {v : Value} (hv : v.Distinct) {path : List String} {isDotted : Bool}
    (h : fields.Distinct) (hassign : Fields.assignBelow? key v path isDotted fields = some inner) :
    inner.Distinct := by
  induction path generalizing fields inner isDotted with
  | nil =>
      rw [Fields.assignBelow?] at hassign
      split at hassign
      · exact h.define? hv hassign
      · cases hassign
  | cons step path ih =>
      rw [Fields.assignBelow?] at hassign
      split at hassign
      · obtain ⟨below, hbelow, rfl⟩ := Option.map_eq_some_iff.1 hassign
        exact h.setTable (ih .empty hbelow)
      · next hlookup =>
          obtain ⟨below, hbelow, rfl⟩ := Option.map_eq_some_iff.1 hassign
          exact h.setTable (ih (h.tableBelow hlookup) hbelow)
      · cases hassign
      · next elements hlookup =>
          split at hassign
          · cases hassign
          · next last hlast =>
              obtain ⟨below, hbelow, rfl⟩ := Option.map_eq_some_iff.1 hassign
              exact h.setLast hlookup (ih (h.lastBelow hlookup hlast) hbelow)
      · cases hassign

theorem Distinct.assign? {v : Value} (hv : v.Distinct) {path : List String} (h : fields.Distinct)
    (hassign : fields.assign? path key v = some inner) : inner.Distinct := by
  cases path with
  | nil => exact h.define? hv hassign
  | cons => exact h.assignBelow? hv hassign

theorem Distinct.assignAll? {assignments : List ((List String × String) × Value)}
    (hvalues : ∀ a ∈ assignments, a.2.Distinct) (h : fields.Distinct)
    (hassign : fields.assignAll? assignments = some inner) : inner.Distinct := by
  induction assignments generalizing fields with
  | nil =>
      cases hassign
      exact h
  | cons a assignments ih =>
      rw [Fields.assignAll?, List.foldlM_cons, Option.bind_eq_bind, Option.bind_eq_some_iff]
        at hassign
      obtain ⟨next, hnext, hrest⟩ := hassign
      exact ih (fun b hb => hvalues b (List.mem_cons_of_mem a hb))
        (h.assign? (hvalues a List.mem_cons_self) hnext) hrest

theorem Distinct.lookupAt {path : List String} (h : fields.Distinct)
    (hat : fields.lookupAt key path = some node) : node.Distinct := by
  induction path generalizing fields with
  | nil => exact h.lookup hat
  | cons step path ih =>
      rw [Fields.lookupAt] at hat
      split at hat
      · next hlookup => exact ih (h.tableBelow hlookup) hat
      · next elements hlookup =>
          split at hat
          · next last hlast => exact ih (h.lastBelow hlookup hlast) hat
          · cases hat
      · cases hat

end Fields

/-! ## Values of nodes -/

theorem fieldValues_eq (fields : Fields) :
    fieldValues fields = fields.map fun field => (field.1, field.2.toValue) := by
  induction fields with
  | nil => rfl
  | cons field fields ih =>
      rw [fieldValues, ih]
      rfl

theorem tableValues_eq (elements : List Fields) :
    tableValues elements = elements.map fun fields => .table (fieldValues fields) := by
  induction elements with
  | nil => rfl
  | cons fields elements ih =>
      rw [tableValues, ih]
      rfl

theorem distinct_fieldValues {fields : Fields} (hnodup : (fields.map Prod.fst).Nodup)
    (hvalues : ∀ field ∈ fields, field.2.toValue.Distinct) :
    (Value.table (fieldValues fields)).Distinct := by
  rw [fieldValues_eq]
  refine .table ?_ fun field hfield => ?_
  · rw [List.map_map]
    exact hnodup
  · obtain ⟨node, hnode, rfl⟩ := List.mem_map.1 hfield
    exact hvalues node hnode

theorem Node.Distinct.toValue {node : Node} (h : node.Distinct) : node.toValue.Distinct := by
  induction h with
  | value hv =>
      rw [Node.toValue]
      exact hv
  | table nodup nodes ih =>
      rw [Node.toValue]
      exact distinct_fieldValues nodup ih
  | tables nodup nodes ih =>
      rw [Node.toValue, tableValues_eq]
      refine .array fun v hv => ?_
      obtain ⟨fields, hfields, rfl⟩ := List.mem_map.1 hv
      exact distinct_fieldValues (nodup fields hfields) (ih fields hfields)

/-- The fields of a document or an inline table, as values. -/
theorem Fields.Distinct.toValue {fields : Fields} (h : fields.Distinct) :
    (Value.table (fieldValues fields)).Distinct :=
  distinct_fieldValues h.nodup fun field hfield => (h.nodes field hfield).toValue

/-! ## Documents -/

namespace Draft

/-- In what has been put together the keys are distinct. -/
structure Distinct (draft : Draft) : Prop where
  finished : draft.finished.Distinct
  current : draft.current.Distinct

variable {draft next : Draft} {fields : Fields} {path : List String} {key : String}

theorem distinct_addElement? {table inner : Fields} (htable : table.Distinct)
    (h : fields.Distinct) (hadd : addElement? key table fields = some inner) : inner.Distinct := by
  rw [addElement?] at hadd
  split at hadd
  · cases hadd
    refine h.set (Fields.Distinct.tables.2 fun other hother => ?_) key
    rw [List.mem_singleton.1 hother]
    exact htable
  · next elements hlookup =>
      cases hadd
      refine h.set (Fields.Distinct.tables.2 fun other hother => ?_) key
      rcases List.mem_append.1 hother with hother | hother
      · exact Fields.Distinct.tables.1 (h.lookup hlookup) other hother
      · rw [List.mem_singleton.1 hother]
        exact htable
  · cases hadd

theorem Distinct.finish? (h : draft.Distinct) (hfinish : draft.finish? = some fields) :
    fields.Distinct := by
  rw [Draft.finish?] at hfinish
  split at hfinish
  · cases hfinish
    exact h.current
  · refine h.finished.changeAt? (fun hbefore hset => ?_) hfinish
    cases hset
    exact hbefore.setTable h.current
  · exact h.finished.changeAt? (distinct_addElement? h.current) hfinish

theorem distinct_beginTable? (h : fields.Distinct)
    (hbegin : beginTable? fields path key = some next) : next.Distinct := by
  rw [beginTable?] at hbegin
  split at hbegin
  · obtain ⟨finished, hfinished, rfl⟩ := Option.map_eq_some_iff.1 hbegin
    refine ⟨h.changeAt? (fun hbefore hsame => ?_) hfinished, .empty⟩
    cases hsame
    exact hbefore
  · next inner hlookup =>
      -- The table is taken over from where it stands, so it is erased there.
      obtain ⟨finished, hfinished, rfl⟩ := Option.map_eq_some_iff.1 hbegin
      refine ⟨h.changeAt? (fun hbefore herase => ?_) hfinished,
        Fields.Distinct.table.1 (h.lookupAt hlookup)⟩
      cases herase
      exact hbefore.erase key
  · cases hbegin

theorem distinct_beginElement? (h : fields.Distinct)
    (hbegin : beginElement? fields path key = some next) : next.Distinct := by
  rw [beginElement?] at hbegin
  obtain ⟨finished, hfinished, rfl⟩ := Option.map_eq_some_iff.1 hbegin
  refine ⟨h.changeAt? (fun hbefore hopened => ?_) hfinished, .empty⟩
  split at hopened
  · cases hopened
    exact hbefore.set (Fields.Distinct.tables.2 fun _ h => absurd h List.not_mem_nil) key
  · cases hopened
    exact hbefore
  · cases hopened

end Draft

/-- In the value that a line assigns the keys are distinct. -/
def Line.Distinct : Line → Prop
  | .assignment _ _ v => v.Distinct
  | _ => True

theorem Draft.Distinct.add? {draft next : Draft} {line : Line} (h : draft.Distinct)
    (hline : line.Distinct) (hadd : draft.add? line = some next) : next.Distinct := by
  cases line with
  | tableHeader path key =>
      obtain ⟨fields, hfields, hbegin⟩ := Option.bind_eq_some_iff.1 hadd
      exact distinct_beginTable? (h.finish? hfields) hbegin
  | elementHeader path key =>
      obtain ⟨fields, hfields, hbegin⟩ := Option.bind_eq_some_iff.1 hadd
      exact distinct_beginElement? (h.finish? hfields) hbegin
  | assignment path key v =>
      obtain ⟨current, hcurrent, rfl⟩ := Option.map_eq_some_iff.1 hadd
      exact ⟨h.finished, h.current.assign? hline hcurrent⟩

theorem Draft.Distinct.foldlM_add? {draft next : Draft} {lines : List Line} (h : draft.Distinct)
    (hlines : ∀ line ∈ lines, line.Distinct) (hadd : lines.foldlM Draft.add? draft = some next) :
    next.Distinct := by
  induction lines generalizing draft with
  | nil =>
      cases hadd
      exact h
  | cons line lines ih =>
      rw [List.foldlM_cons] at hadd
      obtain ⟨middle, hmiddle, hrest⟩ := Option.bind_eq_some_iff.1 hadd
      exact ih (h.add? (hlines line List.mem_cons_self) hmiddle)
        (fun other hother => hlines other (List.mem_cons_of_mem line hother)) hrest

theorem distinct_documentOf? {lines : List Line} {fields : List (String × Value)}
    (hlines : ∀ line ∈ lines, line.Distinct) (h : documentOf? lines = some fields) :
    (Value.table fields).Distinct := by
  obtain ⟨draft, hdraft, hrest⟩ := Option.bind_eq_some_iff.1 h
  obtain ⟨finished, hfinished, hfields⟩ := Option.bind_eq_some_iff.1 hrest
  cases hfields
  have hstart : Draft.start.Distinct := ⟨.empty, .empty⟩
  exact ((hstart.foldlM_add? hlines hdraft).finish? hfinished).toValue

/-! ## Texts -/

section Items

variable {α : Type} {item? : List Char → Option (α × List Char)} {P : α → Prop}
  {cs : List Char} {xs : List α} {rest : List Char}

/-- What holds of whatever is read as an item holds of the elements of an array. -/
theorem forall_of_elements? (hitem : ∀ {cs x rest}, item? cs = some (x, rest) → P x)
    (h : elements? item? cs = some (xs, rest)) : ∀ x ∈ xs, P x := by
  fun_induction elements? item? cs generalizing xs rest with
  | case1 =>
      cases h
      exact fun x hx => absurd hx List.not_mem_nil
  | case2 | case5 | case6 => cases h
  | case3 cs x behind after hclose _ hx =>
      cases h
      exact List.forall_mem_singleton.2 (hitem hx)
  | case4 cs x behind after hcomma hlength _ hx ih =>
      obtain ⟨read, hread, heq⟩ := Option.map_eq_some_iff.1 h
      cases heq
      exact List.forall_mem_cons.2 ⟨hitem hx, ih hread⟩

/-- What holds of whatever is read as an item holds of the fields of an inline table. -/
theorem forall_of_fields? (hitem : ∀ {cs x rest}, item? cs = some (x, rest) → P x)
    (h : fields? item? cs = some (xs, rest)) : ∀ x ∈ xs, P x := by
  fun_induction fields? item? cs generalizing xs rest with
  | case1 | case4 | case5 => cases h
  | case2 cs x behind hx =>
      cases h
      exact List.forall_mem_singleton.2 (hitem hx)
  | case3 cs x behind hx after hcomma hlength ih =>
      obtain ⟨read, hread, heq⟩ := Option.map_eq_some_iff.1 h
      cases heq
      exact List.forall_mem_cons.2 ⟨hitem hx, ih hread⟩

end Items

section Read

variable {read? : List Char → Option (Value × List Char)} {cs rest : List Char} {v : Value}

theorem distinct_assignment? (hread : ∀ {cs v rest}, read? cs = some (v, rest) → v.Distinct)
    {a : (List String × String) × Value} (h : assignment? read? cs = some (a, rest)) :
    a.2.Distinct := by
  obtain ⟨⟨key, behind⟩, -, hvalue⟩ := Option.bind_eq_some_iff.1 h
  dsimp only at hvalue
  split at hvalue
  · obtain ⟨⟨v, after⟩, hv, heq⟩ := Option.bind_eq_some_iff.1 hvalue
    cases heq
    exact hread hv
  · cases hvalue

theorem distinct_inlineTable? (hread : ∀ {cs v rest}, read? cs = some (v, rest) → v.Distinct)
    (h : inlineTable? read? cs = some (v, rest)) : v.Distinct := by
  rw [inlineTable?] at h
  split at h
  · cases h
    exact Fields.Distinct.empty.toValue
  · obtain ⟨⟨assignments, behind⟩, hassignments, hfields⟩ := Option.bind_eq_some_iff.1 h
    obtain ⟨fields, hassign, heq⟩ := Option.bind_eq_some_iff.1 hfields
    cases heq
    exact (Fields.Distinct.empty.assignAll?
      (forall_of_fields? (distinct_assignment? hread) hassignments) hassign).toValue

theorem distinct_integer? {negative : Bool} {base : Nat} {digits : List Char}
    (h : integer? negative base digits = some v) : v.Distinct := by
  rw [integer?] at h
  split at h <;> split at h <;> cases h <;> exact .integer _

theorem distinct_based? {base : Nat} (h : based? base cs = some (v, rest)) : v.Distinct := by
  rw [based?] at h
  split at h
  · obtain ⟨integer, hinteger, heq⟩ := Option.map_eq_some_iff.1 h
    cases heq
    exact distinct_integer? hinteger
  · cases h

theorem distinct_float? {x : Decimal.Binary64} (h : float? x = some v) : v.Distinct := by
  rw [float?] at h
  split at h
  · cases h
  · cases h
    exact .float x

theorem distinct_decimal? {negative : Bool} (h : decimal? negative cs = some (v, rest)) :
    v.Distinct := by
  obtain ⟨⟨whole, afterWhole⟩, -, h⟩ := Option.bind_eq_some_iff.1 h
  dsimp only at h
  split at h
  · cases h
  · obtain ⟨⟨fraction, afterFraction⟩, -, h⟩ := Option.bind_eq_some_iff.1 h
    obtain ⟨⟨exponent, behind⟩, -, h⟩ := Option.bind_eq_some_iff.1 h
    dsimp only at h
    split at h
    · obtain ⟨integer, hinteger, heq⟩ := Option.map_eq_some_iff.1 h
      cases heq
      exact distinct_integer? hinteger
    · obtain ⟨float, hfloat, heq⟩ := Option.map_eq_some_iff.1 h
      cases heq
      exact distinct_float? hfloat

theorem distinct_number? (h : number? cs = some (v, rest)) : v.Distinct := by
  unfold number? at h
  split at h
  · exact distinct_based? h
  · exact distinct_based? h
  · exact distinct_based? h
  · dsimp only at h
    split at h
    · cases h
      exact .float _
    · cases h
      exact .float _
    · exact distinct_decimal? h

theorem distinct_value? {levels : Nat} (h : value? levels cs = some (v, rest)) : v.Distinct := by
  -- What stands in an array or an inline table is read with one level less.
  induction levels using Nat.strongRecOn generalizing cs v rest with
  | _ levels ih =>
    rw [value?.eq_def] at h
    split at h
    · split at h
      · cases h
      · next below =>
          obtain ⟨⟨elements, after⟩, helements, heq⟩ := Option.map_eq_some_iff.1 h
          cases heq
          exact .array (forall_of_elements? (ih below (Nat.lt_succ_self below)) helements)
    · split at h
      · cases h
      · next below => exact distinct_inlineTable? (ih below (Nat.lt_succ_self below)) h
    · split at h
      · obtain ⟨read, -, heq⟩ := Option.map_eq_some_iff.1 h
        cases heq
        exact .string _
      split at h
      · obtain ⟨read, -, heq⟩ := Option.map_eq_some_iff.1 h
        cases heq
        exact .boolean _
      split at h
      · obtain ⟨read, -, heq⟩ := Option.map_eq_some_iff.1 h
        cases heq
        exact .dateTime
      · exact distinct_number? h
    · cases h

theorem distinct_line? {line : Line} (h : line? cs = some (line, rest)) : line.Distinct := by
  unfold line? at h
  split at h
  · split at h
    · cases h
      trivial
    · cases h
  · split at h
    · cases h
      trivial
    · cases h
  · obtain ⟨⟨a, behind⟩, ha, heq⟩ := Option.map_eq_some_iff.1 h
    cases heq
    exact distinct_assignment? distinct_value? ha

theorem distinct_lines? {lines : List Line} (h : lines? cs = some lines) :
    ∀ line ∈ lines, line.Distinct := by
  fun_induction lines? cs generalizing lines with
  | case1 =>
      cases h
      exact fun line hline => absurd hline List.not_mem_nil
  | case2 | case3 | case5 => cases h
  | case4 cs line behind after hend hlength _ hline ih =>
      obtain ⟨others, hothers, rfl⟩ := Option.map_eq_some_iff.1 h
      exact List.forall_mem_cons.2 ⟨distinct_line? hline, ih hothers⟩

end Read

/-- **Keys are defined once.** In all tables of a document that is read, each key stands once. -/
theorem read?_distinct {text : String} {fields : List (String × Value)}
    (h : read? text = some fields) : (Value.table fields).Distinct := by
  obtain ⟨lines, hlines, hdocument⟩ := Option.bind_eq_some_iff.1 h
  exact distinct_documentOf? (distinct_lines? hlines) hdocument

end SiteCompiler.Toml
