import SiteCompiler.Toml.Value
set_option autoImplicit false

/-! # Putting a document together

A document is a list of lines: headers of tables, headers of elements of table arrays, and
assignments to keys of the table whose header came last. Tables on the way to a key are made where
they are missing. Nothing may be defined twice: a table that was made on the way can still get its
header, once, but a table with a header cannot be added to by dotted keys, nor one made by dotted
keys by a header, and what has been assigned as a value is closed.

A table that gets its header late takes its place among the fields at that time.
-/

namespace SiteCompiler.Toml

/-- What a key stands for while a document is put together. A table is *implicit* if it was made on
the way to another one, and *dotted* if that was by a dotted key. -/
inductive Node where
  | value (v : Value)
  | table (isImplicit isDotted : Bool) (fields : List (String × Node))
  | tables (elements : List (List (String × Node)))

/-- The fields of a table, in order of definition. -/
abbrev Fields : Type := List (String × Node)

mutual

/-- The value of a node. -/
def Node.toValue : Node → Value
  | .value v => v
  | .table _ _ fields => .table (fieldValues fields)
  | .tables elements => .array (tableValues elements)

/-- The values of fields. -/
def fieldValues : List (String × Node) → List (String × Value)
  | [] => []
  | (key, node) :: rest => (key, node.toValue) :: fieldValues rest

/-- The values of the tables in an array. -/
def tableValues : List (List (String × Node)) → List Value
  | [] => []
  | fields :: rest => .table (fieldValues fields) :: tableValues rest

end

namespace Fields

/-- The fields with a new one at the end, or with the field of that key changed. -/
def set (fields : Fields) (key : String) (node : Node) : Fields :=
  if (fields.lookup key).isSome then
    fields.map fun field => if field.1 = key then (key, node) else field
  else fields ++ [(key, node)]

/-- The fields without one of them. -/
def erase (fields : Fields) (key : String) : Fields := fields.filter fun field => field.1 ≠ key

/-- Adds a key that is not there yet. -/
def define? (fields : Fields) (key : String) (v : Value) : Option Fields :=
  if (fields.lookup key).isSome then none else some (fields ++ [(key, .value v)])

/-- Adds a key to the table that `path` leads to, by a dotted key. That table has to be one that
dotted keys have made. -/
def assignBelow? (key : String) (v : Value) : List String → Bool → Fields → Option Fields
  | [], isDotted, fields => if isDotted then fields.define? key v else none
  | step :: path, _, fields =>
      match fields.lookup step with
      | none =>
          (assignBelow? key v path true []).map fun inner =>
            fields.set step (.table true true inner)
      | some (.table true isDotted inner) =>
          (assignBelow? key v path isDotted inner).map fun inner =>
            fields.set step (.table true isDotted inner)
      | some (.table false _ _) => none
      | some (.tables elements) =>
          match elements.getLast? with
          | none => none
          | some last =>
              (assignBelow? key v path false last).map fun inner =>
                fields.set step (.tables (elements.dropLast ++ [inner]))
      | some (.value _) => none

/-- Adds a key, dotted or not, to a table that is being written. -/
def assign? (fields : Fields) (path : List String) (key : String) (v : Value) : Option Fields :=
  match path with
  | [] => fields.define? key v
  | path => assignBelow? key v path false fields

/-- Adds keys to a table, one after another. -/
def assignAll? (fields : Fields) (assignments : List ((List String × String) × Value)) :
    Option Fields :=
  assignments.foldlM (fun fields a => fields.assign? a.1.1 a.1.2 a.2) fields

/-- Changes the table that the path of a header leads to, making the tables on the way. -/
def changeAt? (change : Fields → Option Fields) : List String → Fields → Option Fields
  | [], fields => change fields
  | step :: path, fields =>
      match fields.lookup step with
      | none =>
          (changeAt? change path []).map fun inner => fields.set step (.table true false inner)
      | some (.table isImplicit isDotted inner) =>
          (changeAt? change path inner).map fun inner =>
            fields.set step (.table isImplicit isDotted inner)
      | some (.tables elements) =>
          match elements.getLast? with
          | none => none
          | some last =>
              (changeAt? change path last).map fun inner =>
                fields.set step (.tables (elements.dropLast ++ [inner]))
      | some (.value _) => none

/-- What stands at the end of a path of a header. -/
def lookupAt (key : String) : List String → Fields → Option Node
  | [], fields => fields.lookup key
  | step :: path, fields =>
      match fields.lookup step with
      | some (.table _ _ inner) => lookupAt key path inner
      | some (.tables elements) =>
          match elements.getLast? with
          | some last => lookupAt key path last
          | none => none
      | _ => none

end Fields

/-! ## Lines -/

/-- A line of a document. A key comes with the tables that lead to it. -/
inductive Line where
  | tableHeader (path : List String) (key : String)
  | elementHeader (path : List String) (key : String)
  | assignment (path : List String) (key : String) (v : Value)

/-- The table whose header came last; the document itself before the first header. -/
inductive Place where
  | top
  | table (path : List String) (key : String)
  | element (path : List String) (key : String)

/-- A document in writing: the tables that are finished, and the one whose header came last. -/
structure Draft where
  finished : Fields
  place : Place
  current : Fields

namespace Draft

/-- Before the first line. -/
def start : Draft := ⟨[], .top, []⟩

/-- Adds a table to the array of a key. -/
def addElement? (key : String) (table : Fields) (fields : Fields) : Option Fields :=
  match fields.lookup key with
  | none => some (fields.set key (.tables [table]))
  | some (.tables elements) => some (fields.set key (.tables (elements ++ [table])))
  | _ => none

/-- All tables, the one whose header came last included. -/
def finish? (draft : Draft) : Option Fields :=
  match draft.place with
  | .top => some draft.current
  | .table path key =>
      draft.finished.changeAt?
        (fun fields => some (fields.set key (.table false false draft.current))) path
  | .element path key => draft.finished.changeAt? (addElement? key draft.current) path

/-- Begins the table of a header. A table that was made on the way to others is taken over. -/
def beginTable? (finished : Fields) (path : List String) (key : String) : Option Draft :=
  match finished.lookupAt key path with
  | none =>
      (finished.changeAt? some path).map fun finished => ⟨finished, .table path key, []⟩
  -- Made on the way to another table: it is taken out here and put back, at the end, when done.
  | some (.table true false inner) =>
      (finished.changeAt? (fun fields => some (fields.erase key)) path).map fun finished =>
        ⟨finished, .table path key, inner⟩
  | some _ => none

/-- Begins an element of a table array. -/
def beginElement? (finished : Fields) (path : List String) (key : String) : Option Draft :=
  let opened := fun fields : Fields =>
    match fields.lookup key with
    | none => some (fields.set key (.tables []))
    | some (.tables _) => some fields
    | some _ => none
  (finished.changeAt? opened path).map fun finished => ⟨finished, .element path key, []⟩

/-- Adds a line. -/
def add? (draft : Draft) : Line → Option Draft
  | .tableHeader path key => do beginTable? (← draft.finish?) path key
  | .elementHeader path key => do beginElement? (← draft.finish?) path key
  | .assignment path key v =>
      (draft.current.assign? path key v).map fun current => { draft with current }

end Draft

/-- The fields of a document. -/
def documentOf? (lines : List Line) : Option (List (String × Value)) := do
  let draft ← lines.foldlM Draft.add? Draft.start
  some (fieldValues (← draft.finish?))

end SiteCompiler.Toml
