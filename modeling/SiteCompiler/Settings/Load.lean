import SiteCompiler.FileTree.Walk
import SiteCompiler.Settings.Decode
set_option autoImplicit false

/-! # Where a build works and what its settings are

The paths of a build are taken from the working directory; without a choice they are `src`, `dist`
and `.dinomlx/cache`. The source root has to exist. Its settings stand in `config.toml`, and a site
without that file has the default settings.
-/

namespace SiteCompiler

/-- The paths that are chosen for a build. -/
structure BuildChoice where
  srcRoot : Option String
  outDir : Option String
  cacheDir : Option String
  basePath : Option String
  deriving DecidableEq, Repr

/-- The paths of a build. -/
structure BuildPaths where
  srcRoot : Path
  outDir : Path
  cacheDir : Path
  /-- The address below which the site is served. -/
  basePath : String
  deriving DecidableEq, Repr

/-- Why a build has no settings. -/
inductive ConfigError where
  | unreadable (error : FileError)
  | malformed
  | undecodable (error : Settings.DecodeError)
  | invalid (fault : SettingsFault)
  | sourceRootMissing (path : Path)
  deriving DecidableEq, Repr

/-- The wording of the error. -/
def ConfigError.message : ConfigError → String
  | .unreadable error => "IO error: " ++ error.message
  | .malformed => "TOML parse error: the text is not well-formed"
  | .undecodable error => "TOML parse error: " ++ error.message
  | .invalid fault => "Config validation error: " ++ fault.message
  | .sourceRootMissing path => "Source root does not exist: " ++ path.text

/-- The paths of a build that is started in `cwd`. -/
def BuildPaths.resolve (tree : FileTree) (cwd : Path) (choice : BuildChoice) :
    Except ConfigError BuildPaths :=
  let srcRoot := cwd.join (choice.srcRoot.getD "src")
  if tree.pathExists srcRoot then
    .ok {
      srcRoot
      outDir := cwd.join (choice.outDir.getD "dist")
      cacheDir := cwd.join (choice.cacheDir.getD ".dinomlx/cache")
      basePath := choice.basePath.getD "" }
  else .error (.sourceRootMissing srcRoot)

namespace SiteSettings

/-- The name of the configuration file. -/
def fileName : String := "config.toml"

/-- The settings, if they have no fault. -/
def checked (settings : SiteSettings) : Except ConfigError SiteSettings :=
  match settings.fault? with
  | some fault => .error (.invalid fault)
  | none => .ok settings

/-- The settings that a configuration file gives, as a reader reads it. -/
def ofText (read : String → Option (List (String × Toml.Value))) (text : String) :
    Except ConfigError SiteSettings :=
  match read text with
  | none => .error .malformed
  | some fields =>
      match Settings.ofDocument fields with
      | .error e => .error (.undecodable e)
      | .ok settings => settings.checked

/-- The settings of the site at a source root. -/
def load (read : String → Option (List (String × Toml.Value))) (tree : FileTree)
    (srcRoot : Path) : Except ConfigError SiteSettings :=
  let path := srcRoot.join fileName
  if tree.pathExists path then
    match tree.readText path with
    | .error e => .error (.unreadable e)
    | .ok text => ofText read text
  else .ok default

end SiteSettings

end SiteCompiler
