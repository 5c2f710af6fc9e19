import SiteCompiler.Build.Manifest
import SiteCompiler.Proofs.Json.RoundTrip
set_option autoImplicit false

/-! # What a manifest records

A manifest is the text of a value that is made from a few facts on a build and nothing else
(`ofResult_eq`). The value is read back from the text, and the facts from the value
(`record?_value`), so the facts determine the text and the text determines the facts
(`text_determines`). What the pages and the stylesheet hold does not show, apart from the size of
the stylesheet.
-/

namespace SiteCompiler.Manifest

/-- What is recorded of a page. -/
structure PageRecord where
  relativePath : String
  criticalCssSize : Nat
  usedCandidates : List String
  deriving DecidableEq, Repr

/-- What is recorded of a build. -/
structure Record where
  pages : List PageRecord
  criticalCandidates : List String
  /-- The name of the stylesheet, if there is one. -/
  stylesheet : Option String
  stylesheetSize : Nat
  deriving DecidableEq, Repr

/-- The record of a build. -/
def recorded (result : BuildResult) : Record where
  pages := result.pages.map fun page =>
    ⟨page.relativePath, page.criticalCssSize, page.usedCandidates⟩
  criticalCandidates := result.criticalCandidates
  stylesheet := if result.nonCriticalCss = "" then none else some "styles.css"
  stylesheetSize := result.nonCriticalCss.utf8ByteSize

/-! ## Reading a record from a value -/

/-- The text that a value is. -/
def text? : JsonValue → Option String
  | .text s => some s
  | _ => none

/-- The texts of a list. -/
def texts? : JsonValue → Option (List String)
  | .list elements => elements.mapM text?
  | _ => none

/-- The record of a page that a value stands for. It has these fields and no other. -/
def pageRecord? : JsonValue → Option PageRecord
  | .record [("relative_path", .text relativePath), ("critical_css_size", .number size),
      ("used_candidates", used)] =>
      (texts? used).map fun usedCandidates => ⟨relativePath, size, usedCandidates⟩
  | _ => none

/-- The name of the stylesheet, or that there is none. -/
def stylesheet? : JsonValue → Option (Option String)
  | .text name => some (some name)
  | .null => some none
  | _ => none

/-- The record of a build that a value stands for. It has these fields and no other. -/
def record? : JsonValue → Option Record
  | .record [("pages", .list pages), ("critical_candidates", critical),
      ("stylesheet", stylesheet), ("stylesheet_size", .number stylesheetSize)] => do
      let pages ← pages.mapM pageRecord?
      let criticalCandidates ← texts? critical
      let stylesheet ← stylesheet? stylesheet
      some { pages, criticalCandidates, stylesheet, stylesheetSize }
  | _ => none

/-! ## The value of a record -/

/-- The value of the record of a page. -/
def PageRecord.value (page : PageRecord) : JsonValue :=
  .record [("relative_path", .text page.relativePath),
    ("critical_css_size", .number page.criticalCssSize),
    ("used_candidates", textList page.usedCandidates)]

/-- The value of the record of a build. -/
def Record.value (r : Record) : JsonValue :=
  .record [("pages", .list (r.pages.map PageRecord.value)),
    ("critical_candidates", textList r.criticalCandidates),
    ("stylesheet", (r.stylesheet.map JsonValue.text).getD .null),
    ("stylesheet_size", .number r.stylesheetSize)]

theorem mapM_map_eq_some {α β : Type} {f : α → β} {g : β → Option α} (h : ∀ x, g (f x) = some x)
    (xs : List α) : (xs.map f).mapM g = some xs := by
  induction xs with
  | nil => rfl
  | cons x xs ih => rw [List.map_cons, List.mapM_cons, h, ih]; rfl

theorem texts?_textList (names : List String) : texts? (textList names) = some names :=
  mapM_map_eq_some (f := JsonValue.text) (g := text?) (fun _ => rfl) names

theorem pageRecord?_value (page : PageRecord) : pageRecord? page.value = some page := by
  rw [PageRecord.value, pageRecord?, texts?_textList]
  rfl

theorem record?_value (r : Record) : record? r.value = some r := by
  have hstylesheet : stylesheet? ((r.stylesheet.map JsonValue.text).getD .null)
      = some r.stylesheet := by
    cases r.stylesheet <;> rfl
  rw [Record.value, record?, mapM_map_eq_some pageRecord?_value, texts?_textList, hstylesheet]
  rfl

/-- A manifest is made from the record of the build. -/
theorem ofResult_eq (result : BuildResult) : ofResult result = (recorded result).value := by
  have hstylesheet : (if result.hasStylesheet then JsonValue.text Page.stylesheetName else .null)
      = ((recorded result).stylesheet.map JsonValue.text).getD .null := by
    by_cases hempty : result.nonCriticalCss = "" <;>
      simp [recorded, BuildResult.hasStylesheet, Page.stylesheetName, hempty]
  rw [ofResult, hstylesheet, Record.value, recorded, List.map_map]
  rfl

/-- **A manifest determines the record of its build and nothing else.** -/
theorem text_determines (result other : BuildResult) :
    (JsonValue.ofText? (text result)).bind record? = some (recorded result) ∧
      (text result = text other ↔ recorded result = recorded other) := by
  have hread : ∀ result, (JsonValue.ofText? (text result)).bind record?
      = some (recorded result) := by
    intro result
    rw [text, JsonValue.ofText?_pretty, Option.bind_some, ofResult_eq, record?_value]
  refine ⟨hread result, ?_, ?_⟩
  · intro htext
    have hother := hread other
    rw [← htext, hread result] at hother
    exact Option.some.inj hother
  · intro hrecorded
    rw [text, text, ofResult_eq, ofResult_eq, hrecorded]

end SiteCompiler.Manifest
