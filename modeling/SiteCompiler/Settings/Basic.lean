import SiteCompiler.Path
import SiteCompiler.Text.Blank
set_option autoImplicit false

/-! # Settings of a site

Where the parts of a site are found below its source root, how its CSS is generated, and how much
is done at once. Every setting has a default.
-/

namespace SiteCompiler

/-- Where the parts of a site are found, from the source root. -/
structure SourcePaths where
  pages : String
  templates : String
  candidates : String
  /-- The document whose candidates are critical. -/
  aboveTheFold : String
  deriving DecidableEq, Repr

/-- How CSS is generated. -/
structure CssSettings where
  minify : Bool
  /-- The size in bytes above which the critical CSS of a page is noted. -/
  noticeBytes : Nat
  /-- The size in bytes above which the critical CSS of a page is warned about. -/
  warnBytes : Nat
  deriving DecidableEq, Repr

/-- How much is done at once. -/
structure ProcessingSettings where
  /-- The greatest number of workers; without one, as many as there are processors. -/
  maxProcesses : Option Nat
  deriving DecidableEq, Repr

/-- The settings of a site. -/
structure SiteSettings where
  paths : SourcePaths
  css : CssSettings
  processing : ProcessingSettings
  deriving DecidableEq, Repr

/-- The default places. -/
def SourcePaths.default : SourcePaths :=
  ⟨"pages", "templates", "candidates", "above-the-fold.html"⟩

/-- The default CSS settings. -/
def CssSettings.default : CssSettings := ⟨true, 2048, 4096⟩

/-- The default processing settings. -/
def ProcessingSettings.default : ProcessingSettings := ⟨none⟩

/-- The number of workers on a machine with `processors`: never less than one nor more than
that. -/
def ProcessingSettings.workers (settings : ProcessingSettings) (processors : Nat) : Nat :=
  match settings.maxProcesses with
  | none => processors
  | some n => min (max n 1) processors

/-- Why settings cannot be used. -/
inductive SettingsFault where
  | emptyPath (key : String)
  | noticeAboveWarning
  deriving DecidableEq, Repr

/-- The wording of the fault. -/
def SettingsFault.message : SettingsFault → String
  | .emptyPath key => key ++ " must not be empty"
  | .noticeAboveWarning => "css.notice_bytes must not exceed css.warn_bytes"

namespace SiteSettings

/-- The default settings. -/
def default : SiteSettings := ⟨.default, .default, .default⟩

/-- The places with their keys. -/
def namedPaths (settings : SiteSettings) : List (String × String) :=
  [("paths.pages", settings.paths.pages), ("paths.templates", settings.paths.templates),
    ("paths.candidates", settings.paths.candidates),
    ("paths.above_the_fold", settings.paths.aboveTheFold)]

/-- Whether a place is not given: nothing but blanks. -/
def isBlankPath (path : String) : Bool := path.toList.all isBlank

/-- The first fault of the settings. -/
def fault? (settings : SiteSettings) : Option SettingsFault :=
  match settings.namedPaths.find? fun path => isBlankPath path.2 with
  | some path => some (.emptyPath path.1)
  | none =>
      if settings.css.warnBytes < settings.css.noticeBytes then some .noticeAboveWarning else none

/-- The pages directory. -/
def pagesDir (settings : SiteSettings) (srcRoot : Path) : Path := srcRoot.join settings.paths.pages

/-- The templates directory. -/
def templatesDir (settings : SiteSettings) (srcRoot : Path) : Path :=
  srcRoot.join settings.paths.templates

/-- The candidates directory. -/
def candidatesDir (settings : SiteSettings) (srcRoot : Path) : Path :=
  srcRoot.join settings.paths.candidates

/-- The document whose candidates are critical. -/
def aboveTheFoldPath (settings : SiteSettings) (srcRoot : Path) : Path :=
  srcRoot.join settings.paths.aboveTheFold

end SiteSettings

end SiteCompiler
