import SiteCompiler.Settings.Basic
import SiteCompiler.Text.Quoted
import SiteCompiler.Toml.Value
set_option autoImplicit false

/-! # Settings in a configuration file

A configuration file has a table for each group of settings, and each group its own keys. The keys
are taken in the order in which they are written, each replacing a default, and the first one that
is not known or has a value of the wrong kind is the error. A group can also be written as an array
of its settings, in the order of their declaration; what is left out keeps its default.
-/

namespace SiteCompiler.Settings

open Toml (Value)

/-- The kinds of values that a setting can ask for. -/
inductive Expected where
  | text
  | boolean
  | size
  | group (name : String)
  deriving DecidableEq, Repr

/-- The wording of a kind. -/
def Expected.message : Expected → String
  | .text => "a string"
  | .boolean => "a boolean"
  | .size => "usize"
  | .group name => "struct " ++ name

/-- A value as it is named in an error. -/
def found : Value → String
  | .string text => "string " ++ Text.Quoted.encode text
  | .integer n => "integer `" ++ toString n ++ "`"
  | .float x => "floating point `" ++ x.text ++ "`"
  | .boolean b => "boolean `" ++ (if b then "true" else "false") ++ "`"
  | .dateTime => "map"
  | .array _ => "sequence"
  | .table _ => "map"

/-- Why a document holds no settings. -/
inductive DecodeError where
  | unknownField (name : String) (known : List String)
  | invalidType (value : String) (expected : Expected)
  | invalidValue (value : String) (expected : Expected)
  deriving DecidableEq, Repr

/-- The wording of a choice between names. -/
def choice (names : List String) : String :=
  match names.map fun name => "`" ++ name ++ "`" with
  | [name] => name
  | [first, second] => first ++ " or " ++ second
  | names => "one of " ++ String.intercalate ", " names

/-- The wording of the error. -/
def DecodeError.message : DecodeError → String
  | .unknownField name known => "unknown field `" ++ name ++ "`, expected " ++ choice known
  | .invalidType value expected => "invalid type: " ++ value ++ ", expected " ++ expected.message
  | .invalidValue value expected => "invalid value: " ++ value ++ ", expected " ++ expected.message

/-- The text that a setting asks for. -/
def textOf : Value → Except DecodeError String
  | .string text => .ok text
  | v => .error (.invalidType (found v) .text)

/-- The boolean that a setting asks for. -/
def booleanOf : Value → Except DecodeError Bool
  | .boolean b => .ok b
  | v => .error (.invalidType (found v) .boolean)

/-- The size that a setting asks for: an integer that is not negative. -/
def sizeOf : Value → Except DecodeError Nat
  | .integer n =>
      if n < 0 then .error (.invalidValue (found (.integer n)) .size) else .ok n.toNat
  | v => .error (.invalidType (found v) .size)

/-- A group of settings: its name in errors, and its keys in the order of their declaration, each
with how its value changes the group. -/
structure Group (α : Type) where
  name : String
  fields : List (String × (Value → α → Except DecodeError α))

namespace Group

variable {α : Type}

/-- The keys of the group. -/
def keys (group : Group α) : List String := group.fields.map (·.1)

/-- Changes the setting of a key. -/
def set (group : Group α) (settings : α) (field : String × Value) : Except DecodeError α :=
  match group.fields.lookup field.1 with
  | some change => change field.2 settings
  | none => .error (.unknownField field.1 group.keys)

/-- Changes the settings that keys are given for, one after another. -/
def setAll (group : Group α) (settings : α) (fields : List (String × Value)) :
    Except DecodeError α :=
  fields.foldlM group.set settings

/-- The key under which a date or time holds its text when it is taken as a table. -/
def dateTimeKey : String := "$__toml_private_datetime"

/-- Changes the settings that a value gives. -/
def decode (group : Group α) (settings : α) : Value → Except DecodeError α
  | .table fields => group.setAll settings fields
  | .array elements => group.setAll settings (group.keys.zip elements)
  | .dateTime => .error (.unknownField dateTimeKey group.keys)
  | v => .error (.invalidType (found v) (.group group.name))

end Group

/-- The places of the parts of a site. -/
def pathsGroup : Group SourcePaths where
  name := "PathsConfig"
  fields :=
    [("pages", fun v s => do let text ← textOf v; .ok { s with pages := text }),
      ("templates", fun v s => do let text ← textOf v; .ok { s with templates := text }),
      ("candidates", fun v s => do let text ← textOf v; .ok { s with candidates := text }),
      ("above_the_fold", fun v s => do let text ← textOf v; .ok { s with aboveTheFold := text })]

/-- The CSS settings. -/
def cssGroup : Group CssSettings where
  name := "CssConfig"
  fields :=
    [("minify", fun v s => do let b ← booleanOf v; .ok { s with minify := b }),
      ("notice_bytes", fun v s => do let n ← sizeOf v; .ok { s with noticeBytes := n }),
      ("warn_bytes", fun v s => do let n ← sizeOf v; .ok { s with warnBytes := n })]

/-- The processing settings. -/
def processingGroup : Group ProcessingSettings where
  name := "ProcessingConfig"
  fields :=
    [("max_processes", fun v s => do let n ← sizeOf v; .ok { s with maxProcesses := some n })]

/-- The whole document. A group that it gives replaces the default group. -/
def siteGroup : Group SiteSettings where
  name := "SiteConfig"
  fields :=
    [("paths", fun v s => do let paths ← pathsGroup.decode .default v; .ok { s with paths }),
      ("css", fun v s => do let css ← cssGroup.decode .default v; .ok { s with css }),
      ("processing", fun v s => do
        let processing ← processingGroup.decode .default v; .ok { s with processing })]

/-- The settings of a document. -/
def ofDocument (fields : List (String × Value)) : Except DecodeError SiteSettings :=
  siteGroup.setAll .default fields

end SiteCompiler.Settings
